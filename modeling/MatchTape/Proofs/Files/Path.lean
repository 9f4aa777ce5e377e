import MatchTape.Files.Path

/-!
# Joined paths

A path that is joined to a folder stands for itself if it is absolute; otherwise it is appended to
the folder with a separator behind it.
-/

namespace MatchTape.Files.Path

variable {folder front name : String}

/-! ## The ends of a path -/

theorem isAbsolute_append (filled : front ≠ "") :
    isAbsolute (front ++ name) = isAbsolute front := by
  obtain ⟨first, rest, chars⟩ := List.exists_cons_of_ne_nil (mt String.toList_eq_nil_iff.mp filled)
  rw [isAbsolute, isAbsolute, String.toList_append, chars, List.cons_append, List.head?_cons,
    List.head?_cons]

theorem endsInSeparator_append (filled : name ≠ "") :
    endsInSeparator (front ++ name) = endsInSeparator name := by
  have chars : name.toList ≠ [] := mt String.toList_eq_nil_iff.mp filled
  rw [endsInSeparator, endsInSeparator, String.toList_append, List.getLast?_append,
    List.getLast?_eq_some_getLast chars, Option.some_or]

theorem append_ne_left (filled : name ≠ "") : front ++ name ≠ front := by
  intro same
  have chars := congrArg String.toList same
  rw [String.toList_append, List.append_right_eq_self] at chars
  exact filled (String.toList_eq_nil_iff.mp chars)

theorem append_ne_right (filled : front ≠ "") : front ++ name ≠ name := by
  intro same
  have chars := congrArg String.toList same
  rw [String.toList_append, List.append_left_eq_self] at chars
  exact filled (String.toList_eq_nil_iff.mp chars)

/-! ## Paths behind a folder -/

/-- The folder with a separator behind it, unless it is empty or ends in one. -/
def lead (folder : String) : String :=
  if folder.isEmpty || endsInSeparator folder then folder else folder ++ separator.toString

theorem join_of_isAbsolute (absolute : isAbsolute name = true) : join folder name = name :=
  if_pos absolute

theorem join_of_relative (relative : isAbsolute name = false) :
    join folder name = lead folder ++ name := by
  rw [join, relative, if_neg Bool.false_ne_true, lead]
  split <;> rfl

theorem lead_cases (folder : String) :
    (lead folder = folder ∧ (folder = "" ∨ endsInSeparator folder = true)) ∨
      lead folder = folder ++ separator.toString := by
  rw [lead]
  split
  · next ends =>
      rw [Bool.or_eq_true, String.isEmpty_iff] at ends
      exact .inl ⟨rfl, ends⟩
  · exact .inr rfl

theorem lead_of_endsInSeparator (ends : endsInSeparator folder = true) : lead folder = folder := by
  rw [lead, ends, Bool.or_true, if_pos rfl]

theorem lead_eq_self_iff (filled : folder ≠ "") :
    lead folder = folder ↔ endsInSeparator folder = true := by
  refine ⟨fun same => ?_, lead_of_endsInSeparator⟩
  rcases lead_cases folder with ⟨-, empty | ends⟩ | extended
  · exact absurd empty filled
  · exact ends
  · exact absurd (extended.symm.trans same) (append_ne_left (by decide))

theorem lead_lead (folder : String) : lead (lead folder) = lead folder := by
  rcases lead_cases folder with ⟨same, -⟩ | extended
  · rw [same, same]
  · refine lead_of_endsInSeparator ?_
    rw [extended, endsInSeparator_append (by decide)]
    rfl

theorem join_join_empty : join (join folder "") name = join folder name := by
  have empty : join folder "" = lead folder := by
    rw [join_of_relative rfl, String.append_empty]
  cases absolute : isAbsolute name with
  | true => rw [join_of_isAbsolute absolute, join_of_isAbsolute absolute]
  | false => rw [empty, join_of_relative absolute, join_of_relative absolute, lead_lead]

/-- What stands behind the beginning of a path may be appended when that is joined. -/
theorem join_append (filled : front ≠ "") :
    join folder (front ++ name) = join folder front ++ name := by
  have same : isAbsolute (front ++ name) = isAbsolute front := isAbsolute_append filled
  cases absolute : isAbsolute front with
  | true => rw [join_of_isAbsolute absolute, join_of_isAbsolute (same.trans absolute)]
  | false =>
      rw [join_of_relative absolute, join_of_relative (same.trans absolute), String.append_assoc]

theorem endsInSeparator_join (filled : name ≠ "") :
    endsInSeparator (join folder name) = endsInSeparator name := by
  cases absolute : isAbsolute name with
  | true => rw [join_of_isAbsolute absolute]
  | false => rw [join_of_relative absolute, endsInSeparator_append filled]

theorem join_ne_empty (filled : name ≠ "") : join folder name ≠ "" := by
  cases absolute : isAbsolute name with
  | true => rwa [join_of_isAbsolute absolute]
  | false =>
      rw [join_of_relative absolute]
      exact fun empty => filled (String.append_eq_empty_iff.mp empty).2

/-- A path is put right behind a folder if and only if it is not absolute and the folder ends in a
separator. -/
theorem join_eq_append_iff (filled : folder ≠ "") :
    join folder name = folder ++ name ↔
      endsInSeparator folder = true ∧ isAbsolute name = false := by
  cases absolute : isAbsolute name with
  | true =>
      rw [join_of_isAbsolute absolute]
      exact ⟨fun same => absurd same.symm (append_ne_right filled), fun ⟨_, other⟩ => nomatch other⟩
  | false => rw [join_of_relative absolute, String.append_left_inj, lead_eq_self_iff filled,
      and_iff_left rfl]

end MatchTape.Files.Path
