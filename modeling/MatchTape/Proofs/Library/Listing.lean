import MatchTape.Proofs.Files.Tree
import MatchTape.Proofs.Library.Expansion

/-!
# From names to files

A pattern is replaced by names that are seen from the folder of the recordings, as the pattern is.
Each of them leads to the file that was listed, unless the part in front of the pattern ends in the
slash that leans back: what is listed then stands in a folder whose own name ends in it.
-/

namespace MatchTape.Library.Expansion

open Files Pattern

variable {recordings name file : String} {files : List String}
  {list : String → String → Except Fault (List String)}

theorem expand_of_listed (pattern : isPattern name = true)
    (listed : list (listedFolder recordings name) (lastPart name) = .ok files) :
    expand recordings list name = (sorted files).map (folderPart name ++ ·) := by
  rw [expand, if_pos pattern, listed]

theorem mem_sorted : file ∈ sorted files ↔ file ∈ files :=
  (List.mergeSort_perm _ _).mem_iff

/-- A name made of the folder of a pattern and of a file leads to the file in that folder if and
only if a separator stands between the two and the file is not absolute, or there is no folder. -/
theorem join_folderPart_iff :
    Path.join recordings (folderPart name ++ file) =
        Path.join (listedFolder recordings name) file ↔
      folderPart name = "" ∨
        Path.endsInSeparator (folderPart name) = true ∧ Path.isAbsolute file = false := by
  rw [listedFolder]
  by_cases plain : folderPart name = ""
  · simp only [plain, String.empty_append, Path.join_join_empty, true_or]
  · rw [Path.join_append plain, eq_comm, Path.join_eq_append_iff (Path.join_ne_empty plain),
      Path.endsInSeparator_join plain, or_iff_right plain]

/-- What a pattern is replaced by leads to the files that were listed, one by one and in ascending
order, if and only if the pattern has no folder, or its folder ends in a separator of paths and no
file is absolute. -/
theorem expand_leads_iff (pattern : isPattern name = true)
    (listed : list (listedFolder recordings name) (lastPart name) = .ok files) :
    (expand recordings list name).map (Path.join recordings) =
        (sorted files).map (Path.join (listedFolder recordings name)) ↔
      ∀ file ∈ files, folderPart name = "" ∨
        Path.endsInSeparator (folderPart name) = true ∧ Path.isAbsolute file = false := by
  rw [expand_of_listed pattern listed, List.map_map, List.map_inj_left]
  simp only [Function.comp_apply, join_folderPart_iff, mem_sorted]

/-- A folder of recordings with a folder `ladder` and one whose name ends in the slash that leans
back. -/
def leaning : Tree where
  levels := [[("Replays", .folder
    [("ladder", .folder [("b.rep", .file []), ("a.rep", .file [])]),
      ("a\\", .folder [("x.rep", .file [])])])]]

theorem expand_leads_iff_ladder :
    let list := listTree leaning
    list (listedFolder "Replays" "ladder/*.rep") (lastPart "ladder/*.rep") =
        .ok ["b.rep", "a.rep"] ∧
      (expand "Replays" list "ladder/*.rep").map (Path.join "Replays") =
        (sorted ["b.rep", "a.rep"]).map
          (Path.join (listedFolder "Replays" "ladder/*.rep")) := by
  intro list
  have listed : list (listedFolder "Replays" "ladder/*.rep") (lastPart "ladder/*.rep") =
      .ok ["b.rep", "a.rep"] := rfl
  refine ⟨listed, (expand_leads_iff (by decide) listed).mpr ?_⟩
  exact fun file member => .inr ⟨by decide, by revert file member; decide⟩

/-- The file is listed in the folder whose name ends in the slash that leans back, but the name that
the pattern is replaced by leads nowhere. -/
theorem expand_leaning :
    let list := listTree leaning
    list (listedFolder "Replays" "a\\*.rep") (lastPart "a\\*.rep") = .ok ["x.rep"] ∧
      expand "Replays" list "a\\*.rep" = ["a\\x.rep"] ∧
      leaning.read (Path.join (listedFolder "Replays" "a\\*.rep") "x.rep") = .ok [] ∧
      leaning.read (Path.join "Replays" "a\\x.rep") = .error .notFound := by
  intro list
  have listed :
      list (listedFolder "Replays" "a\\*.rep") (lastPart "a\\*.rep") = .ok ["x.rep"] := rfl
  have ascending : sorted ["x.rep"] = ["x.rep"] := sorted_eq_singleton_iff.mpr rfl
  refine ⟨listed, ?_, rfl, rfl⟩
  rw [expand_of_listed (by decide) listed, ascending]
  rfl

/-- In a tree, what is read under a name that leads there is a file of the listed folder that the
pattern accepts. -/
theorem read_of_mem_expand {tree : Tree} {entries : Entries} {source : String}
    (pattern : isPattern name = true)
    (found : tree.find (listedFolder recordings name) = .ok (.folder entries))
    (proper : entries.Proper)
    (separated : folderPart name = "" ∨ Path.endsInSeparator (folderPart name) = true)
    (member : source ∈ expand recordings (listTree tree) name)
    (fits : Path.check (Path.join recordings source) = .ok ()) :
    ∃ file contents, source = folderPart name ++ file ∧
      (file, Node.file contents) ∈ entries ∧ accepts (lastPart name) file = true ∧
      tree.read (Path.join recordings source) = .ok contents := by
  have listed : listTree tree (listedFolder recordings name) (lastPart name) =
      .ok (entries.fileNames.filter (accepts (lastPart name))) := by
    rw [listTree, Tree.fileNames, found]
    rfl
  rw [expand_of_listed pattern listed, List.mem_map] at member
  obtain ⟨file, chosen, rfl⟩ := member
  obtain ⟨there, accepted⟩ := List.mem_filter.mp (mem_sorted.mp chosen)
  obtain ⟨contents, stands⟩ := Entries.mem_fileNames.mp there
  have leads : Path.join recordings (folderPart name ++ file) =
      Path.join (listedFolder recordings name) file :=
    join_folderPart_iff.mpr
      (separated.imp_right fun ends => ⟨ends, (proper.named _ stands).relative⟩)
  rw [leads] at fits ⊢
  exact ⟨file, contents, rfl, stands, accepted, Tree.read_join found proper stands fits⟩

end MatchTape.Library.Expansion
