import Mathlib.Data.List.Basic
import MatchTape.Digest

/-!
# Folds of words that differ once

A step of the fold can be taken back, as the prime has an inverse.  So the fold of some words
keeps different accumulators apart, and two lists of one length that differ at a single position
are never folded to the same value.
-/

namespace MatchTape

/-! ## Lists that differ once -/

/-- There is exactly one position at which two lists differ. -/
def DifferOnce {α : Type} (first second : List α) : Prop :=
  ∃! position : Nat, first[position]? ≠ second[position]?

namespace DifferOnce

variable {α : Type} {first second : List α} {one other : α}

/-- Different members between equal parts are the only difference. -/
theorem of_ne (differs : one ≠ other) (front behind : List α) :
    DifferOnce (front ++ one :: behind) (front ++ other :: behind) := by
  refine ⟨front.length, ?_, fun position unlike => ?_⟩
  · change (front ++ one :: behind)[front.length]? ≠ (front ++ other :: behind)[front.length]?
    rw [List.getElem?_append_right (Nat.le_refl _), List.getElem?_append_right (Nat.le_refl _),
      Nat.sub_self, List.getElem?_cons_zero, List.getElem?_cons_zero]
    exact fun same => differs (Option.some.inj same)
  · by_contra elsewhere
    apply unlike
    rcases Nat.lt_or_gt_of_ne elsewhere with before | after
    · rw [List.getElem?_append_left before, List.getElem?_append_left before]
    · rw [List.getElem?_append_right (Nat.le_of_lt after),
        List.getElem?_append_right (Nat.le_of_lt after),
        List.getElem?_cons, List.getElem?_cons, if_neg (by omega), if_neg (by omega)]

/-- Lists of one length that differ once are equal in front of the position and behind it. -/
theorem exists_split (differ : DifferOnce first second) (length : first.length = second.length) :
    ∃ front one other behind, one ≠ other ∧ first = front ++ one :: behind ∧
      second = front ++ other :: behind := by
  obtain ⟨position, unlike, only⟩ := differ
  have same : ∀ index, index ≠ position → first[index]? = second[index]? := fun index apart =>
    not_not.mp fun unlike => apart (only index unlike)
  have inside : position < first.length := by
    by_contra outside
    have ended : second.length ≤ position := by omega
    exact unlike ((List.getElem?_eq_none (by omega)).trans (List.getElem?_eq_none ended).symm)
  have insideOther : position < second.length := length ▸ inside
  have front : first.take position = second.take position := by
    refine List.ext_getElem? fun index => ?_
    rw [List.getElem?_take, List.getElem?_take]
    split
    · next before => exact same index (Nat.ne_of_lt before)
    · rfl
  have behind : first.drop (position + 1) = second.drop (position + 1) := by
    refine List.ext_getElem? fun index => ?_
    rw [List.getElem?_drop, List.getElem?_drop]
    exact same _ (by omega)
  refine ⟨first.take position, first[position], second[position], first.drop (position + 1),
    ?_, ?_, ?_⟩
  · rw [List.getElem?_eq_getElem inside, List.getElem?_eq_getElem insideOther] at unlike
    exact fun equal => unlike (congrArg some equal)
  · rw [List.getElem_cons_drop, List.take_append_drop]
  · rw [front, behind, List.getElem_cons_drop, List.take_append_drop]

theorem append (differ : DifferOnce first second) (length : first.length = second.length)
    (front behind : List α) :
    DifferOnce (front ++ (first ++ behind)) (front ++ (second ++ behind)) := by
  obtain ⟨before, one, other, after, differs, rfl, rfl⟩ := differ.exists_split length
  have whole := of_ne differs (front ++ before) (after ++ behind)
  simp only [List.append_assoc, List.cons_append] at whole ⊢
  exact whole

end DifferOnce

namespace Digest.Fold

/-! ## Single steps -/

def inverse : UInt32 := 0x359c449b

theorem prime_mul_inverse : prime * inverse = 1 := by decide

theorem step_mul_inverse (accumulator word : UInt32) :
    step accumulator word * inverse = accumulator ^^^ word := by
  rw [step, UInt32.mul_assoc, prime_mul_inverse, UInt32.mul_one]

theorem xor_eq_of_step_eq {accumulator other word otherWord : UInt32}
    (same : step accumulator word = step other otherWord) :
    accumulator ^^^ word = other ^^^ otherWord := by
  rw [← step_mul_inverse, same, step_mul_inverse]

theorem step_left_injective (word : UInt32) : Function.Injective (step · word) :=
  fun _ _ same => (UInt32.xor_left_inj word).mp (xor_eq_of_step_eq same)

theorem step_right_injective (accumulator : UInt32) : Function.Injective (step accumulator) :=
  fun _ _ same => (UInt32.xor_right_inj accumulator).mp (xor_eq_of_step_eq same)

/-! ## Whole folds -/

variable {α : Type} {read : α → UInt32} {first second : List α}

/-- Whatever is folded behind them, different accumulators stay apart. -/
theorem foldl_step_injective (read : α → UInt32) (words : List α) :
    Function.Injective fun accumulator =>
      words.foldl (fun accumulator word => step accumulator (read word)) accumulator := by
  induction words with
  | nil => exact Function.injective_id
  | cons word words ih => exact ih.comp (step_left_injective (read word))

/-- Lists that differ once lead from one accumulator to different ones. -/
theorem foldl_step_ne (injective : Function.Injective read) (differ : DifferOnce first second)
    (length : first.length = second.length) (start : UInt32) :
    first.foldl (fun accumulator word => step accumulator (read word)) start ≠
      second.foldl (fun accumulator word => step accumulator (read word)) start := by
  obtain ⟨front, one, other, behind, differs, rfl, rfl⟩ := differ.exists_split length
  rw [List.foldl_append, List.foldl_append, List.foldl_cons, List.foldl_cons]
  intro same
  have words := step_right_injective _ (foldl_step_injective read behind same)
  exact differs (injective words)

theorem checksums_concat (start : UInt32) (list : List UInt32) (word : UInt32) :
    checksums start (list ++ [word]) = step (checksums start list) word :=
  List.foldl_concat step start word list

theorem checksums_ne {first second : List UInt32} (differ : DifferOnce first second)
    (length : first.length = second.length) (start : UInt32) :
    checksums start first ≠ checksums start second :=
  foldl_step_ne Function.injective_id differ length start

theorem ofBytes_ne {first second : List UInt8} (differ : DifferOnce first second)
    (length : first.length = second.length) : ofBytes first ≠ ofBytes second :=
  foldl_step_ne (fun _ _ => UInt8.toUInt32_inj.mp) differ length basis

end Digest.Fold

end MatchTape
