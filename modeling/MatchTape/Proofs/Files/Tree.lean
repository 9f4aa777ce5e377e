import MatchTape.Files.Writing
import MatchTape.Proofs.Files.Path

/-!
# What stands in a folder

A name that is joined to the path of a folder is one more step on the way there, and leads to what
stands in the folder under the name.
-/

namespace MatchTape.Files

namespace Path

variable {folder name : String}

/-! ## The steps of a path -/

theorem segments_ne_nil (chars : List Char) : segments chars ≠ [] := by
  cases chars with
  | nil => exact List.cons_ne_nil _ _
  | cons char rest =>
      rw [segments]
      split
      · exact List.cons_ne_nil _ _
      · split <;> exact List.cons_ne_nil _ _

theorem segments_separator (chars : List Char) :
    segments (separator :: chars) = [] :: segments chars := by
  obtain ⟨first, others, parted⟩ := List.exists_cons_of_ne_nil (segments_ne_nil chars)
  rw [segments, parted]
  exact if_pos rfl

theorem segments_cons {char : Char} (apart : char ≠ separator) {chars first : List Char}
    {others : List (List Char)} (parted : segments chars = first :: others) :
    segments (char :: chars) = (char :: first) :: others := by
  rw [segments, parted]
  exact if_neg apart

theorem segments_append (front rest : List Char) :
    segments (front ++ separator :: rest) = segments front ++ segments rest := by
  induction front with
  | nil => exact segments_separator rest
  | cons char front ih =>
      by_cases same : char = separator
      · rw [same, List.cons_append, segments_separator, segments_separator, ih, List.cons_append]
      · obtain ⟨first, others, parted⟩ := List.exists_cons_of_ne_nil (segments_ne_nil front)
        rw [parted, List.cons_append] at ih
        rw [List.cons_append, segments_cons same ih, segments_cons same parted, List.cons_append]

theorem segments_of_plain {chars : List Char} (plain : separator ∉ chars) :
    segments chars = [chars] := by
  induction chars with
  | nil => rfl
  | cons char chars ih =>
      rw [List.mem_cons, not_or] at plain
      exact segments_cons (Ne.symm plain.1) (ih plain.2)

theorem steps_append (front rest : String) :
    steps (front ++ separator.toString ++ rest) = steps front ++ steps rest := by
  have chars : (front ++ separator.toString ++ rest).toList =
      front.toList ++ separator :: rest.toList := by
    rw [String.toList_append, String.toList_append, List.append_assoc]
    rfl
  rw [steps, parts, chars, segments_append, List.map_append, List.filter_append]
  rfl

/-- The steps of a path that may lead to a folder only, and of what is appended to it. -/
theorem steps_append_of_ends {front rest : String}
    (ends : front = "" ∨ endsInSeparator front = true) :
    steps (front ++ rest) = steps front ++ steps rest := by
  rcases ends with rfl | ends
  · rw [String.empty_append]
    rfl
  · rw [endsInSeparator, beq_iff_eq] at ends
    obtain ⟨before, chars⟩ := List.getLast?_eq_some_iff.mp ends
    have parted : front = String.ofList before ++ separator.toString := by
      rw [← String.toList_inj, chars, String.toList_append, String.toList_ofList]
      rfl
    have alone := steps_append (String.ofList before) ""
    rw [String.append_empty, ← parted] at alone
    rw [parted, steps_append, ← parted, alone]
    exact congrArg (· ++ steps rest) (List.append_nil _).symm

/-- The name of an entry of a folder: one step of a path that is neither too long nor a way to stay
or to go up. -/
structure IsEntryName (name : String) : Prop where
  filled : name ≠ ""
  plain : separator ∉ name.toList
  leaves : name ≠ here
  descends : name ≠ above
  short : name.utf8ByteSize ≤ longestName

namespace IsEntryName

theorem relative (entry : IsEntryName name) : isAbsolute name = false := by
  obtain ⟨first, rest, chars⟩ :=
    List.exists_cons_of_ne_nil (mt String.toList_eq_nil_iff.mp entry.filled)
  have plain := entry.plain
  rw [chars, List.mem_cons, not_or] at plain
  rw [isAbsolute, chars, List.head?_cons, beq_eq_false_iff_ne, ne_eq, Option.some.injEq]
  exact Ne.symm plain.1

theorem not_endsInSeparator (entry : IsEntryName name) : endsInSeparator name = false := by
  rw [endsInSeparator, beq_eq_false_iff_ne]
  exact fun ends => entry.plain (List.mem_of_getLast? ends)

theorem steps_eq (entry : IsEntryName name) : steps name = [name] := by
  rw [steps, parts, segments_of_plain entry.plain, List.map_singleton, String.ofList_toList]
  exact List.filter_cons_of_pos (by simp [entry.filled])

theorem steps_join (entry : IsEntryName name) :
    steps (join folder name) = steps folder ++ [name] := by
  rw [join_of_relative entry.relative, ← entry.steps_eq]
  rcases lead_cases folder with ⟨same, ends⟩ | extended
  · rw [same]
    exact steps_append_of_ends ends
  · rw [extended]
    exact steps_append folder name

theorem isAbsolute_join (entry : IsEntryName name) (filled : folder ≠ "") :
    isAbsolute (join folder name) = isAbsolute folder := by
  rw [join_of_relative entry.relative]
  rcases lead_cases folder with ⟨same, -⟩ | extended
  · rw [same, isAbsolute_append filled]
  · rw [extended, String.append_assoc, isAbsolute_append filled]

end IsEntryName

end Path

namespace Entries

variable {entries : Entries} {name : String} {node : Node}

structure Proper (entries : Entries) : Prop where
  distinct : (entries.map Prod.fst).Nodup
  named : ∀ entry ∈ entries, Path.IsEntryName entry.1

theorem mem_fileNames :
    name ∈ fileNames entries ↔ ∃ contents, (name, Node.file contents) ∈ entries := by
  rw [fileNames, List.mem_filterMap]
  constructor
  · rintro ⟨⟨other, contents | others⟩, member, same⟩
    · cases same
      exact ⟨contents, member⟩
    · cases same
  · rintro ⟨contents, member⟩
    exact ⟨_, member, rfl⟩

theorem lookup_of_mem (distinct : (entries.map Prod.fst).Nodup) (member : (name, node) ∈ entries) :
    entries.lookup name = some node := by
  induction entries with
  | nil => cases member
  | cons first others ih =>
      obtain ⟨other, old⟩ := first
      rw [List.map_cons, List.nodup_cons] at distinct
      rcases List.mem_cons.mp member with same | later
      · cases same
        exact List.lookup_cons_self
      · have apart : name ≠ other := by
          rintro rfl
          exact distinct.1 (List.mem_map.mpr ⟨_, later, rfl⟩)
        rw [List.lookup_cons, beq_false_of_ne apart]
        exact ih distinct.2 later

end Entries

namespace Tree

variable {tree : Tree} {path folder name : String} {entries : Entries} {spot : Spot}

def reached (path : String) : Option Node → Except Fault Node
  | none => .error .notFound
  | some (.folder entries) => .ok (.folder entries)
  | some (.file contents) =>
      if Path.endsInSeparator path then .error .notFolder else .ok (.file contents)

theorem find_of_walk (fits : Path.check path = .ok ())
    (walks : tree.walk (tree.origin path) (Path.steps path) = .ok spot) :
    tree.find path = reached path spot.node := by
  obtain ⟨base, trail, node⟩ := spot
  rw [find, fits, walks]
  rcases node with _ | contents | entries
  · rfl
  · rw [reached]
    cases Path.endsInSeparator path <;> rfl
  · rfl

theorem walk_of_find (found : tree.find folder = .ok (.folder entries)) :
    ∃ spot, tree.walk (tree.origin folder) (Path.steps folder) = .ok spot ∧
      spot.node = some (.folder entries) := by
  rcases fits : Path.check folder with fault | _
  · rw [find, fits] at found
    cases found
  rcases walks : tree.walk (tree.origin folder) (Path.steps folder) with fault | spot
  · rw [find, fits, walks] at found
    cases found
  rw [find_of_walk fits walks] at found
  refine ⟨spot, rfl, ?_⟩
  rcases stands : spot.node with _ | contents | others
  · rw [stands] at found
    cases found
  · rw [stands, reached] at found
    split at found <;> cases found
  · rw [stands] at found
    cases found
    rfl

/-- What a name that is joined to the path of a folder leads to is what stands under the name. -/
theorem find_join (found : tree.find folder = .ok (.folder entries))
    (entry : Path.IsEntryName name) (fits : Path.check (Path.join folder name) = .ok ()) :
    tree.find (Path.join folder name) =
      (entries.lookup name).elim (.error .notFound) .ok := by
  obtain ⟨spot, walks, stands⟩ := walk_of_find found
  have filled : folder ≠ "" := by
    rintro rfl
    cases found
  have origin : tree.origin (Path.join folder name) = tree.origin folder := by
    rw [Tree.origin, Tree.origin, entry.isAbsolute_join filled]
  have enters : tree.enter spot name =
      .ok ⟨spot.base, (name, entries) :: spot.trail, entries.lookup name⟩ := by
    rw [enter, stands]
    simp only [entry.leaves, entry.descends, Nat.not_lt.mpr entry.short, if_false]
  have further : tree.walk (tree.origin (Path.join folder name))
      (Path.steps (Path.join folder name)) =
      .ok ⟨spot.base, (name, entries) :: spot.trail, entries.lookup name⟩ := by
    rw [walk] at walks
    rw [origin, entry.steps_join, walk, List.foldlM_append, walks]
    exact (bind_pure _).trans enters
  rw [find_of_walk fits further]
  have file : Path.endsInSeparator (Path.join folder name) = false :=
    (Path.endsInSeparator_join entry.filled).trans entry.not_endsInSeparator
  rcases entries.lookup name with _ | contents | others
  · rfl
  · rw [reached, file]
    rfl
  · rfl

theorem read_join (found : tree.find folder = .ok (.folder entries)) (proper : entries.Proper)
    {contents : List UInt8} (member : (name, Node.file contents) ∈ entries)
    (fits : Path.check (Path.join folder name) = .ok ()) :
    tree.read (Path.join folder name) = .ok contents := by
  rw [read, find_join found (proper.named _ member) fits,
    Entries.lookup_of_mem proper.distinct member]
  rfl

/-! ## What is written -/

theorem outcome_write_congr (tree : Tree) (path : String) (contents others : List UInt8) :
    (tree.outcome (tree.write path others)).1 = (tree.outcome (tree.write path contents)).1 := by
  unfold write
  cases tree.site path with
  | error fault => rfl
  | ok found =>
      obtain ⟨folder, name⟩ := found
      cases name with
      | none => rfl
      | some name =>
          cases Path.endsInSeparator path with
          | true => rfl
          | false =>
              cases entered : tree.enter folder name with
              | error fault => simp only [bind, Except.bind, entered]
              | ok spot =>
                  obtain ⟨base, trail, node⟩ := spot
                  simp only [bind, Except.bind, entered]
                  rcases node with _ | old | entries <;> rfl

/-- Whether a file can be written does not depend on what is written. -/
theorem writeDeep_congr (tree : Tree) (path : String) (contents others : List UInt8) :
    (tree.writeDeep path others).1 = (tree.writeDeep path contents).1 := by
  unfold writeDeep
  split
  · exact outcome_write_congr _ path contents others
  · rfl

end Tree

end MatchTape.Files
