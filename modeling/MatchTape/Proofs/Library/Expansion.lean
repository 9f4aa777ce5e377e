import MatchTape.Library.Expansion
import MatchTape.Proofs.Library.Pattern

/-!
# Expanding names again

The names that patterns are replaced by may be patterns themselves, for the name of a file may hold
a star or a question mark.  Such a name is expanded again by whoever is handed it, and stands for
its file only if it accepts no other file of its folder.
-/

namespace MatchTape.Library.Expansion

open Files Pattern

variable {recordings name : String} {files : String → Except Fault (List String)}

def listing (files : String → Except Fault (List String)) (folder pattern : String) :
    Except Fault (List String) :=
  (files folder).map (·.filter (accepts pattern))

theorem listTree_eq_listing (tree : Tree) : listTree tree = listing tree.fileNames := rfl

/-- The last part of a name stands for exactly one file of its folder, the one of that name. -/
def IsAlone (recordings : String) (files : String → Except Fault (List String))
    (name : String) : Prop :=
  ∃ found, files (listedFolder recordings name) = .ok found ∧ found.count (lastPart name) = 1 ∧
    ∀ file ∈ found, accepts (lastPart name) file = true → file = lastPart name

/-! ## One name -/

theorem folderPart_append_lastPart (name : String) : folderPart name ++ lastPart name = name := by
  rw [folderPart, lastPart, ← String.ofList_append, ← List.reverse_append,
    List.takeWhile_append_dropWhile, List.reverse_reverse, String.ofList_toList]

theorem sorted_eq_singleton_iff {names : List String} {name : String} :
    sorted names = [name] ↔ names = [name] := by
  have perm : (sorted names).Perm names := List.mergeSort_perm _ _
  constructor
  · intro single
    exact List.perm_singleton.mp (single ▸ perm.symm)
  · rintro rfl
    exact List.perm_singleton.mp perm

/-- Of some files, one is accepted by its own name if it is there once and no other is. -/
theorem filter_accepts_eq_singleton_iff {found : List String} {file : String} :
    found.filter (accepts file) = [file] ↔
      found.count file = 1 ∧ ∀ other ∈ found, accepts file other = true → other = file := by
  have counted : (found.filter (accepts file)).count file = found.count file :=
    List.count_filter (accepts_self file)
  constructor
  · intro single
    rw [single, List.count_singleton_self] at counted
    refine ⟨counted.symm, fun other member accepted => ?_⟩
    have kept : other ∈ found.filter (accepts file) := List.mem_filter.mpr ⟨member, accepted⟩
    rw [single] at kept
    exact List.mem_singleton.mp kept
  · rintro ⟨once, others⟩
    have alike : ∀ other ∈ found.filter (accepts file), other = file := fun other member =>
      others other (List.mem_filter.mp member).1 (List.mem_filter.mp member).2
    rw [List.eq_replicate_of_mem alike, List.count_replicate_self, once] at counted
    rw [List.eq_replicate_of_mem alike, counted, List.replicate_one]

theorem map_folderPart_eq_singleton_iff {found : List String} :
    found.map (folderPart name ++ ·) = [name] ↔ found = [lastPart name] := by
  rw [List.map_eq_singleton_iff]
  constructor
  · rintro ⟨file, rfl, same⟩
    have whole : folderPart name ++ file = folderPart name ++ lastPart name :=
      same.trans (folderPart_append_lastPart name).symm
    rw [(String.append_right_inj _).mp whole]
  · rintro rfl
    exact ⟨_, rfl, folderPart_append_lastPart name⟩

/-- Expanding a name gives the name again if and only if it is no pattern or is alone. -/
theorem expand_eq_singleton_iff :
    expand recordings (listing files) name = [name] ↔
      (isPattern name = true → IsAlone recordings files name) := by
  cases plain : isPattern name with
  | false => simp [expand, plain]
  | true =>
      simp only [expand, plain, if_true, forall_const, listing, IsAlone]
      cases files (listedFolder recordings name) with
      | error fault => simp [Except.map]
      | ok found =>
          simp only [Except.map, Except.ok.injEq, exists_eq_left']
          rw [map_folderPart_eq_singleton_iff, sorted_eq_singleton_iff,
            filter_accepts_eq_singleton_iff]

/-! ## All names -/

theorem expandAll_singleton (list : String → String → Except Fault (List String)) :
    expandAll recordings list [name] = expand recordings list name :=
  List.flatMap_singleton _ _

/-- What names were expanded to comes out unchanged when it is expanded again, as a whole and one
by one, if and only if each of these names that is a pattern is alone in its folder.  The whole may
come out unchanged where a single name does not: of the files `*` and `x\?`, the second is lost and
the first stands for both. -/
theorem expandAll_again_iff (recordings : String) (files : String → Except Fault (List String))
    (names : List String) :
    let list := listing files
    let sources := expandAll recordings list names
    (expandAll recordings list sources = sources ∧
        ∀ source ∈ sources, expandAll recordings list [source] = [source]) ↔
      ∀ source ∈ sources, isPattern source = true → IsAlone recordings files source := by
  intro list sources
  simp only [expandAll_singleton, list, expand_eq_singleton_iff]
  refine ⟨And.right, fun alone => ⟨?_, alone⟩⟩
  have single : sources.map (expand recordings list) = sources.map fun source => [source] :=
    List.map_congr_left fun source member => expand_eq_singleton_iff.mpr (alone source member)
  rw [expandAll, List.flatMap_def, single, ← List.flatMap_def, List.flatMap_singleton']

/-- A folder with two recordings, the name of one of which accepts both. -/
def starred : Tree where
  levels := [[("Replays", .folder [("a*.rep", .file []), ("ab.rep", .file [])])]]

/-- What a star was expanded to is expanded to more: the file whose name has a star in it stands
for both. -/
theorem expandAll_again_starred :
    let list := listTree starred
    let sources := expandAll "Replays" list ["*.rep"]
    sources = ["a*.rep", "ab.rep"] ∧
      expandAll "Replays" list sources = ["a*.rep", "ab.rep", "ab.rep"] ∧
      expandAll "Replays" list ["a*.rep"] = ["a*.rep", "ab.rep"] := by
  have ascending : sorted ["a*.rep", "ab.rep"] = ["a*.rep", "ab.rep"] :=
    List.mergeSort_of_pairwise (by decide)
  have expanded (name : String) (pattern : isPattern name = true)
      (listed : listTree starred (listedFolder "Replays" name) (lastPart name) =
        .ok ["a*.rep", "ab.rep"]) (plain : folderPart name = "") :
      expand "Replays" (listTree starred) name = ["a*.rep", "ab.rep"] := by
    rw [expand, if_pos pattern, listed, plain]
    simp only [ascending]
    rfl
  have star := expanded "*.rep" (by decide +kernel) rfl (by decide +kernel)
  have first := expanded "a*.rep" (by decide +kernel) rfl (by decide +kernel)
  have second : expand "Replays" (listTree starred) "ab.rep" = ["ab.rep"] := rfl
  have sources : expandAll "Replays" (listTree starred) ["*.rep"] = ["a*.rep", "ab.rep"] :=
    (expandAll_singleton _).trans star
  refine ⟨sources, ?_, (expandAll_singleton _).trans first⟩
  rw [sources, expandAll, List.flatMap_cons, List.flatMap_cons, first, second]
  rfl

end MatchTape.Library.Expansion
