/-!
# Patterns of names

In a pattern a star stands for any run of characters and a question mark for
exactly one; every other character stands for itself, letters of the English
alphabet in either case.

A name is compared with a pattern from the front.  A star stands for nothing at
first; when the characters behind it turn out not to fit, the last star takes one
character more.  Stars in front of it are never gone back to.
-/

namespace MatchTape.Library

namespace Pattern

def star : Char := '*'

def one : Char := '?'

def isPattern (name : String) : Bool :=
  name.toList.any fun char => char == star || char == one

def standsFor (char found : Char) : Bool :=
  char == one || char.toLower == found.toLower

/-- The place behind the last star: what follows it in the pattern, and what follows
the characters that it stands for so far in the name. -/
structure Retreat where
  pattern : List Char
  name : List Char
  deriving DecidableEq, Repr

/-- One comparison after another leads from behind the star to what is left of pattern
and name; no other star is met on the way. -/
inductive Retreat.LeadsTo (retreat : Retreat) : List Char → List Char → Prop where
  | here : retreat.LeadsTo retreat.pattern retreat.name
  | onward {char found : Char} {pattern name : List Char} (plain : char ≠ star)
      (before : retreat.LeadsTo (char :: pattern) (found :: name)) :
      retreat.LeadsTo pattern name

theorem Retreat.LeadsTo.length_le {retreat : Retreat} {pattern name : List Char}
    (leads : retreat.LeadsTo pattern name) :
    pattern.length ≤ retreat.pattern.length ∧ name.length ≤ retreat.name.length := by
  induction leads with
  | here => exact ⟨Nat.le_refl _, Nat.le_refl _⟩
  | onward _ _ ih => exact ⟨Nat.le_of_succ_le ih.1, Nat.le_of_succ_le ih.2⟩

/-- What is left of a pattern and of the name that is compared with it. -/
structure Scan where
  pattern : List Char
  name : List Char
  retreat? : Option Retreat
  leads : ∀ retreat ∈ retreat?, retreat.LeadsTo pattern name

inductive Round where
  | ended (accepted : Bool)
  | goesOn (scan : Scan)

namespace Scan

def start (pattern name : List Char) : Scan :=
  ⟨pattern, name, none, nofun⟩

def behindStar (pattern name : List Char) : Scan :=
  ⟨pattern, name, some ⟨pattern, name⟩, by rintro _ ⟨⟩; exact .here⟩

/-- Let the last star take one character more. -/
def retry : Option Retreat → Round
  | some ⟨pattern, _ :: name⟩ => .goesOn (behindStar pattern name)
  | _ => .ended false

def round : Scan → Round
  | ⟨pattern, [], _, _⟩ => .ended (pattern.all (· == star))
  | ⟨[], _ :: _, retreat?, _⟩ => retry retreat?
  | ⟨char :: pattern, found :: name, retreat?, leads⟩ =>
      if plain : char = star then .goesOn (behindStar pattern (found :: name))
      else if standsFor char found then
        .goesOn ⟨pattern, name, retreat?, fun retreat is => .onward plain (leads retreat is)⟩
      else retry retreat?

/-- The courses that a round can take: the name is at its end, a star is met, a character
fits, or there is a mismatch and only the last star is left. -/
inductive Course : Scan → Round → Prop where
  | nameSpent {pattern : List Char} {retreat? : Option Retreat}
      (leads : ∀ retreat ∈ retreat?, retreat.LeadsTo pattern []) :
      Course ⟨pattern, [], retreat?, leads⟩ (.ended (pattern.all (· == star)))
  | starMet {found : Char} {pattern name : List Char} {retreat? : Option Retreat}
      (leads : ∀ retreat ∈ retreat?, retreat.LeadsTo (star :: pattern) (found :: name)) :
      Course ⟨star :: pattern, found :: name, retreat?, leads⟩
        (.goesOn (behindStar pattern (found :: name)))
  | fits {char found : Char} {pattern name : List Char} {retreat? : Option Retreat}
      (leads : ∀ retreat ∈ retreat?, retreat.LeadsTo (char :: pattern) (found :: name))
      (after : ∀ retreat ∈ retreat?, retreat.LeadsTo pattern name)
      (plain : char ≠ star) (stands : standsFor char found = true) :
      Course ⟨char :: pattern, found :: name, retreat?, leads⟩
        (.goesOn ⟨pattern, name, retreat?, after⟩)
  | patternSpent {found : Char} {name : List Char} {retreat? : Option Retreat} {round : Round}
      (leads : ∀ retreat ∈ retreat?, retreat.LeadsTo [] (found :: name))
      (retries : retry retreat? = round) : Course ⟨[], found :: name, retreat?, leads⟩ round
  | mismatch {char found : Char} {pattern name : List Char} {retreat? : Option Retreat}
      {round : Round}
      (leads : ∀ retreat ∈ retreat?, retreat.LeadsTo (char :: pattern) (found :: name))
      (plain : char ≠ star) (differs : ¬ standsFor char found = true)
      (retries : retry retreat? = round) :
      Course ⟨char :: pattern, found :: name, retreat?, leads⟩ round

theorem course (scan : Scan) : Course scan scan.round := by
  obtain ⟨pattern, name, retreat?, leads⟩ := scan
  cases name with
  | nil => cases pattern <;> exact .nameSpent leads
  | cons found name =>
      cases pattern with
      | nil => exact .patternSpent leads rfl
      | cons char pattern =>
          by_cases any : char = star
          · cases any
            exact .starMet leads
          · by_cases stands : standsFor char found = true
            · have goesOn : round ⟨char :: pattern, found :: name, retreat?, leads⟩ = _ :=
                (dif_neg any).trans (if_pos stands)
              rw [goesOn]
              exact .fits leads _ any stands
            · have retries : round ⟨char :: pattern, found :: name, retreat?, leads⟩ = _ :=
                (dif_neg any).trans (if_neg stands)
              exact .mismatch leads any stands retries.symm

/-- A bound on the rounds that are left: for each character that the last star may
still take, all of the pattern behind it is compared at most once. -/
def effort (scan : Scan) : Nat :=
  match scan.retreat? with
  | none => (scan.name.length + 1) * (scan.pattern.length + 1) + scan.pattern.length
  | some retreat => retreat.name.length * (retreat.pattern.length + 1) + scan.pattern.length

theorem effort_retry {scan after : Scan} (goesOn : retry scan.retreat? = .goesOn after) :
    after.effort < scan.effort := by
  obtain ⟨pattern, name, retreat?, leads⟩ := scan
  rcases retreat? with _ | ⟨behind, _ | ⟨found, rest⟩⟩
  · cases goesOn
  · cases goesOn
  · cases goesOn
    simp only [effort, behindStar, List.length_cons, Nat.succ_mul]
    omega

theorem effort_behindStar {char found : Char} {pattern name : List Char}
    {retreat? : Option Retreat}
    (leads : ∀ retreat ∈ retreat?, retreat.LeadsTo (char :: pattern) (found :: name)) :
    (behindStar pattern (found :: name)).effort <
      effort ⟨char :: pattern, found :: name, retreat?, leads⟩ := by
  cases retreat? with
  | none =>
      have bound : (name.length + 1) * (pattern.length + 1) ≤
          (name.length + 1 + 1) * (pattern.length + 1 + 1) := Nat.mul_le_mul (by omega) (by omega)
      simp only [effort, behindStar, List.length_cons]
      omega
  | some retreat =>
      have lengths := (leads retreat rfl).length_le
      have bound : (name.length + 1) * (pattern.length + 1) ≤
          retreat.name.length * (retreat.pattern.length + 1) :=
        Nat.mul_le_mul lengths.2 (Nat.le_succ_of_le lengths.1)
      simp only [effort, behindStar, List.length_cons]
      omega

theorem effort_onward {char found : Char} {pattern name : List Char} {retreat? : Option Retreat}
    (leads : ∀ retreat ∈ retreat?, retreat.LeadsTo (char :: pattern) (found :: name))
    (after : ∀ retreat ∈ retreat?, retreat.LeadsTo pattern name) :
    effort ⟨pattern, name, retreat?, after⟩ <
      effort ⟨char :: pattern, found :: name, retreat?, leads⟩ := by
  cases retreat? with
  | none =>
      have bound : (name.length + 1) * (pattern.length + 1) ≤
          (name.length + 1 + 1) * (pattern.length + 1 + 1) := Nat.mul_le_mul (by omega) (by omega)
      simp only [effort, List.length_cons]
      omega
  | some retreat =>
      simp only [effort, List.length_cons]
      omega

/-- Every round that goes on brings the end nearer. -/
theorem effort_round {scan after : Scan} (goesOn : scan.round = .goesOn after) :
    after.effort < scan.effort := by
  have course := scan.course
  rw [goesOn] at course
  cases course with
  | starMet leads => exact effort_behindStar leads
  | fits leads after => exact effort_onward leads after
  | patternSpent leads retries | mismatch leads _ _ retries => exact effort_retry retries

-- Semireducible, so that the comparison of given texts computes.
@[semireducible]
def run (scan : Scan) : Bool :=
  match _result : scan.round with
  | .ended accepted => accepted
  | .goesOn after => after.run
termination_by scan.effort
decreasing_by exact effort_round _result

end Scan

def accepts (pattern name : String) : Bool :=
  (Scan.start pattern.toList name.toList).run

end Pattern

end MatchTape.Library
