import Mathlib.Data.List.Forall2
import MatchTape.Library.Pattern

/-!
# What a pattern accepts

`Matches` says what a pattern stands for, character by character, and `StandsFor` what one character
of it does, so that a name is cut into pieces.  A comparison that goes back to the last star alone
finds every match: were one to be found from an earlier star, the last one could take what lies in
between.
-/

namespace MatchTape.Library.Pattern

inductive Matches : List Char → List Char → Prop where
  | done : Matches [] []
  | skip {pattern name : List Char} (rest : Matches pattern name) :
      Matches (star :: pattern) name
  | more {pattern name : List Char} (found : Char) (rest : Matches (star :: pattern) name) :
      Matches (star :: pattern) (found :: name)
  | single {char found : Char} {pattern name : List Char} (plain : char ≠ star)
      (stands : standsFor char found = true) (rest : Matches pattern name) :
      Matches (char :: pattern) (found :: name)

variable {char found : Char} {pattern name : List Char}

/-! ## Patterns -/

theorem matches_nil : Matches [] name ↔ name = [] := by
  constructor
  · rintro ⟨⟩
    rfl
  · rintro rfl
    exact .done

theorem matches_star_nil : Matches (star :: pattern) [] ↔ Matches pattern [] := by
  constructor
  · intro all
    cases all with
    | skip rest => exact rest
  · exact .skip

theorem matches_star_cons : Matches (star :: pattern) (found :: name) ↔
    Matches pattern (found :: name) ∨ Matches (star :: pattern) name := by
  constructor
  · intro all
    cases all with
    | skip rest => exact .inl rest
    | more _ rest => exact .inr rest
    | single plain => exact absurd rfl plain
  · rintro (rest | rest)
    · exact .skip rest
    · exact .more found rest

theorem not_matches_nil (plain : char ≠ star) : ¬ Matches (char :: pattern) [] := by
  intro all
  cases all with
  | skip => exact plain rfl

theorem matches_cons (plain : char ≠ star) : Matches (char :: pattern) (found :: name) ↔
    standsFor char found = true ∧ Matches pattern name := by
  constructor
  · intro all
    cases all with
    | skip | more => exact absurd rfl plain
    | single _ stands rest => exact ⟨stands, rest⟩
  · rintro ⟨stands, rest⟩
    exact .single plain stands rest

theorem matches_self (pattern : List Char) : Matches pattern pattern := by
  induction pattern with
  | nil => exact .done
  | cons char pattern ih =>
      by_cases any : char = star
      · exact any ▸ .more star (.skip ih)
      · exact .single any (by simp [standsFor]) ih

/-! ## Stars -/

/-- What a star and more stands for ends in what stands behind the star. -/
theorem matches_star_iff_suffix :
    Matches (star :: pattern) name ↔ ∃ tail, tail <:+ name ∧ Matches pattern tail := by
  induction name with
  | nil =>
      rw [matches_star_nil]
      constructor
      · exact fun rest => ⟨[], List.suffix_refl [], rest⟩
      · rintro ⟨tail, ends, rest⟩
        rwa [List.suffix_nil.mp ends] at rest
  | cons found name ih =>
      rw [matches_star_cons, ih]
      constructor
      · rintro (rest | ⟨tail, ends, rest⟩)
        · exact ⟨_, List.suffix_refl _, rest⟩
        · exact ⟨tail, ends.trans (List.suffix_cons found name), rest⟩
      · rintro ⟨tail, ends, rest⟩
        rcases List.suffix_cons_iff.mp ends with rfl | ends
        · exact .inl rest
        · exact .inr ⟨tail, ends, rest⟩

theorem Matches.extend {tail : List Char} (all : Matches (star :: pattern) tail)
    (ends : tail <:+ name) : Matches (star :: pattern) name := by
  obtain ⟨rest, inside, found⟩ := matches_star_iff_suffix.mp all
  exact matches_star_iff_suffix.mpr ⟨rest, inside.trans ends, found⟩

namespace Retreat

variable {retreat : Retreat}

theorem LeadsTo.suffix (leads : retreat.LeadsTo pattern name) : name <:+ retreat.name := by
  induction leads with
  | here => exact List.suffix_refl _
  | onward _ _ ih => exact (List.suffix_cons _ _).trans ih

/-- The characters that lead somewhere are as many of the pattern as of the name, whatever name
they are compared with. -/
theorem LeadsTo.ends (leads : retreat.LeadsTo pattern name) {other : List Char}
    (all : Matches retreat.pattern other) :
    ∃ rest, rest <:+ other ∧ Matches pattern rest ∧
      rest.length + retreat.name.length = other.length + name.length := by
  induction leads with
  | here => exact ⟨other, List.suffix_refl other, all, rfl⟩
  | @onward char found pattern name plain _ ih =>
      obtain ⟨rest, ends, more, lengths⟩ := ih
      cases rest with
      | nil => exact absurd more (not_matches_nil plain)
      | cons next rest =>
          rw [List.length_cons, List.length_cons] at lengths
          exact ⟨rest, (List.suffix_cons next rest).trans ends, ((matches_cons plain).mp more).2,
            by omega⟩

/-- If the star takes one character more, what is reached from there is shorter. -/
theorem LeadsTo.shorter (leads : retreat.LeadsTo pattern name)
    (all : Matches (star :: retreat.pattern) retreat.name.tail) :
    ∃ rest, rest <:+ retreat.name ∧ Matches pattern rest ∧ rest.length ≤ name.length - 1 := by
  obtain ⟨other, inside, behind⟩ := matches_star_iff_suffix.mp all
  obtain ⟨rest, ends, more, lengths⟩ := leads.ends behind
  have taken := inside.length_le
  have left := leads.length_le.2
  rw [List.length_tail] at taken
  exact ⟨rest, ends.trans (inside.trans (List.tail_suffix _)), more, by omega⟩

end Retreat

/-! ## Scans -/

namespace Scan

variable {scan after : Scan}

/-- A match may still be found, from here or once the last star has taken one character more. -/
def Open (scan : Scan) : Prop :=
  Matches scan.pattern scan.name ∨
    ∃ retreat ∈ scan.retreat?, Matches (star :: retreat.pattern) retreat.name.tail

theorem open_start : (start pattern name).Open ↔ Matches pattern name := by
  simp [Open, start]

theorem open_behindStar :
    (behindStar pattern name).Open ↔ Matches (star :: pattern) name := by
  cases name with
  | nil => simp [Open, behindStar, matches_star_nil]
  | cons found name => simp [Open, behindStar, matches_star_cons]

/-- Behind a mismatch only the last star is left. -/
theorem open_of_retry (mismatch : ¬ Matches scan.pattern scan.name)
    (goesOn : retry scan.retreat? = .goesOn after) : after.Open ↔ scan.Open := by
  obtain ⟨pattern, name, retreat?, leads⟩ := scan
  rcases retreat? with _ | ⟨behind, _ | ⟨found, rest⟩⟩
  · cases goesOn
  · cases goesOn
  · cases goesOn
    rw [open_behindStar]
    simp [Open, mismatch]

/-- The comparison ends where there is no star left that could take more. -/
theorem not_open_of_retry {accepted : Bool} (mismatch : ¬ Matches scan.pattern scan.name)
    (more : scan.name ≠ []) (ends : retry scan.retreat? = .ended accepted) :
    accepted = true ↔ scan.Open := by
  obtain ⟨pattern, name, retreat?, leads⟩ := scan
  rcases retreat? with _ | ⟨behind, _ | ⟨found, rest⟩⟩
  · cases ends
    simp [Open, mismatch]
  · -- The star cannot have taken all of the name, of which something is left.
    exact absurd (List.suffix_nil.mp (leads _ rfl).suffix) more
  · cases ends

/-- When a star is met, nothing is lost by forgetting the one before. -/
theorem open_star {found : Char} {retreat? : Option Retreat}
    (leads : ∀ retreat ∈ retreat?, retreat.LeadsTo (star :: pattern) (found :: name)) :
    (behindStar pattern (found :: name)).Open ↔
      Open ⟨star :: pattern, found :: name, retreat?, leads⟩ := by
  rw [open_behindStar]
  refine ⟨.inl, ?_⟩
  rintro (all | ⟨retreat, is, earlier⟩)
  · exact all
  · obtain ⟨rest, inside, all, shorter⟩ := (leads retreat is).shorter earlier
    have ends : rest <:+ found :: name :=
      List.suffix_of_suffix_length_le inside (leads retreat is).suffix
        (Nat.le_trans shorter (Nat.sub_le _ _))
    exact all.extend ends

theorem open_onward {char found : Char} {retreat? : Option Retreat} (plain : char ≠ star)
    (stands : standsFor char found = true)
    (leads : ∀ retreat ∈ retreat?, retreat.LeadsTo (char :: pattern) (found :: name))
    (after : ∀ retreat ∈ retreat?, retreat.LeadsTo pattern name) :
    Open ⟨pattern, name, retreat?, after⟩ ↔
      Open ⟨char :: pattern, found :: name, retreat?, leads⟩ := by
  simp only [Open, matches_cons plain, stands, true_and]

theorem open_nil {retreat? : Option Retreat}
    (leads : ∀ retreat ∈ retreat?, retreat.LeadsTo pattern []) :
    Open ⟨pattern, [], retreat?, leads⟩ ↔ Matches pattern [] := by
  refine ⟨?_, .inl⟩
  rintro (all | ⟨retreat, is, earlier⟩)
  · exact all
  · obtain ⟨rest, -, all, shorter⟩ := (leads retreat is).shorter earlier
    rwa [List.length_eq_zero_iff.mp (Nat.le_zero.mp shorter)] at all

theorem all_star_iff : pattern.all (· == star) = true ↔ Matches pattern [] := by
  induction pattern with
  | nil => simp [matches_nil]
  | cons char pattern ih =>
      by_cases any : char = star
      · rw [any, matches_star_nil, ← ih]
        simp
      · simp [any, not_matches_nil any]

theorem not_matches_of_differs {found : Char} (plain : char ≠ star)
    (differs : ¬ standsFor char found = true) : ¬ Matches (char :: pattern) (found :: name) :=
  fun all => differs ((matches_cons plain).mp all).1

/-- A round that goes on leaves open what was open. -/
theorem open_round (goesOn : scan.round = .goesOn after) : after.Open ↔ scan.Open := by
  have course := scan.course
  rw [goesOn] at course
  cases course with
  | starMet leads => exact open_star leads
  | fits leads after plain stands => exact open_onward plain stands leads after
  | patternSpent leads retries => exact open_of_retry (nomatch matches_nil.mp ·) retries
  | mismatch leads plain differs retries =>
      exact open_of_retry (not_matches_of_differs plain differs) retries

/-- A round that ends the comparison tells whether a match was open. -/
theorem open_of_ended {accepted : Bool} (ends : scan.round = .ended accepted) :
    accepted = true ↔ scan.Open := by
  have course := scan.course
  rw [ends] at course
  cases course with
  | nameSpent leads => rw [open_nil, all_star_iff]
  | patternSpent leads retries =>
      exact not_open_of_retry (nomatch matches_nil.mp ·) (List.cons_ne_nil _ _) retries
  | mismatch leads plain differs retries =>
      exact not_open_of_retry (not_matches_of_differs plain differs) (List.cons_ne_nil _ _) retries

theorem run_iff (scan : Scan) : scan.run = true ↔ scan.Open := by
  induction scan using run.induct with
  | case1 scan accepted ends =>
      rw [run, ends]
      exact open_of_ended ends
  | case2 scan after goesOn ih =>
      rw [run, goesOn]
      exact ih.trans (open_round goesOn)

def rounds : Nat → Scan → Round
  | 0, scan => .goesOn scan
  | count + 1, scan =>
      match scan.round with
      | .ended accepted => .ended accepted
      | .goesOn after => rounds count after

theorem exists_rounds (scan : Scan) :
    ∃ count ≤ scan.effort + 1, rounds count scan = .ended scan.run := by
  induction scan using run.induct with
  | case1 scan accepted ends =>
      refine ⟨1, Nat.le_add_left 1 _, ?_⟩
      rw [rounds, run, ends]
  | case2 scan after goesOn ih =>
      obtain ⟨count, few, done⟩ := ih
      refine ⟨count + 1, Nat.succ_le_succ (Nat.le_trans few (effort_round goesOn)), ?_⟩
      rw [rounds, run, goesOn]
      exact done

end Scan

/-! ## Names -/

theorem accepts_iff_matches (pattern name : String) :
    accepts pattern name = true ↔ Matches pattern.toList name.toList :=
  (Scan.run_iff _).trans Scan.open_start

theorem accepts_self (name : String) : accepts name name = true :=
  (accepts_iff_matches name name).mpr (matches_self name.toList)

/-! ## Pieces -/

/-- What a character of a pattern stands for: a star for any characters, a question mark for any
single one, and every other character for one that is the same but for the case of a letter. -/
inductive StandsFor : Char → List Char → Prop where
  | run (piece : List Char) : StandsFor star piece
  | any (found : Char) : StandsFor one [found]
  | same {char found : Char} (noStar : char ≠ star) (noOne : char ≠ one)
      (alike : char.toLower = found.toLower) : StandsFor char [found]

theorem standsFor_of_ne (plain : char ≠ star) {piece : List Char} :
    StandsFor char piece ↔ ∃ found, piece = [found] ∧ standsFor char found = true := by
  constructor
  · rintro (_ | found | ⟨-, -, alike⟩)
    · exact absurd rfl plain
    · exact ⟨found, rfl, rfl⟩
    · exact ⟨_, rfl, by simp [standsFor, alike]⟩
  · rintro ⟨found, rfl, stands⟩
    by_cases single : char = one
    · exact single ▸ .any found
    · refine .same plain single ?_
      simpa [standsFor, single] using stands

theorem matches_iff_pieces : Matches pattern name ↔
    ∃ pieces : List (List Char), pieces.flatten = name ∧ List.Forall₂ StandsFor pattern pieces := by
  induction pattern generalizing name with
  | nil =>
      simp [matches_nil, eq_comm]
  | cons char pattern ih =>
      by_cases any : char = star
      · subst any
        rw [matches_star_iff_suffix]
        constructor
        · rintro ⟨tail, ⟨piece, rfl⟩, rest⟩
          obtain ⟨pieces, rfl, stand⟩ := ih.mp rest
          exact ⟨piece :: pieces, rfl, .cons (.run piece) stand⟩
        · rintro ⟨pieces, rfl, stand⟩
          cases stand with
          | @cons _ piece _ pieces _ others =>
              exact ⟨pieces.flatten, ⟨piece, rfl⟩, ih.mpr ⟨pieces, rfl, others⟩⟩
      · constructor
        · intro all
          cases name with
          | nil => exact absurd all (not_matches_nil any)
          | cons found name =>
              obtain ⟨stands, rest⟩ := (matches_cons any).mp all
              obtain ⟨pieces, rfl, stand⟩ := ih.mp rest
              exact ⟨[found] :: pieces, rfl,
                .cons ((standsFor_of_ne any).mpr ⟨found, rfl, stands⟩) stand⟩
        · rintro ⟨pieces, rfl, stand⟩
          cases stand with
          | @cons _ piece _ pieces first others =>
              obtain ⟨found, rfl, stands⟩ := (standsFor_of_ne any).mp first
              exact (matches_cons any).mpr ⟨stands, ih.mpr ⟨pieces, rfl, others⟩⟩

/-- A pattern accepts a name if and only if the name can be cut into pieces, one behind the other,
that the characters of the pattern stand for; and the comparison comes to an end, after no more
rounds than there are ways to set a character of the pattern against one of the name. -/
theorem accepts_iff_pieces (pattern name : String) :
    (accepts pattern name = true ↔ ∃ pieces : List (List Char),
      pieces.flatten = name.toList ∧ List.Forall₂ StandsFor pattern.toList pieces) ∧
    ∃ count ≤ (name.length + 2) * (pattern.length + 1),
      Scan.rounds count (.start pattern.toList name.toList) = .ended (accepts pattern name) := by
  refine ⟨(accepts_iff_matches pattern name).trans matches_iff_pieces, ?_⟩
  obtain ⟨count, few, done⟩ := Scan.exists_rounds (.start pattern.toList name.toList)
  refine ⟨count, Nat.le_trans few ?_, done⟩
  simp only [Scan.effort, Scan.start, String.length_toList]
  rw [Nat.succ_mul (name.length + 1)]
  omega

end MatchTape.Library.Pattern
