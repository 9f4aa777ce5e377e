import MatchTape.Proofs.Packet.Assembly

/-!
# What a refused fragment leaves behind

A fragment that is refused for what it is leaves no trace: nothing that arrives later tells
whether it has been there.  A fragment with which all numbers have arrived but not all bytes
is refused too, and yet it stays: it counts as received, and whatever arrives behind it is
refused.
-/

namespace MatchTape.Packet

def Fault.LeavesGap : Fault → Prop
  | .fragment _ (.uncovered _ _ _) => True
  | _ => False

namespace Assembly

open Attempts

variable {assembly other after : Assembly} {fragment : Fragment} {fault : Fault}

/-- Two assemblies count alike, and whatever arrives at both comes to the same. -/
structure Alike (assembly other : Assembly) : Prop where
  received : assembly.received = other.received
  complete : assembly.complete = other.complete
  outcomes : ∀ arrivals, outcomes add arrivals assembly = outcomes add arrivals other

theorem Alike.refl (assembly : Assembly) : assembly.Alike assembly :=
  ⟨rfl, rfl, fun _ => rfl⟩

theorem received_store (assembly : Assembly) (fragment : Fragment) :
    (assembly.store fragment).received = assembly.received + 1 :=
  List.length_append

/-! ## Single refusals -/

theorem not_leavesGap_of_objection {cause : Mismatch}
    (wrong : assembly.objection? fragment = some cause) :
    ¬ (Fault.fragment fragment.wrapped cause).LeavesGap := by
  intro gap
  cases cause with
  | uncovered count covered total =>
      unfold objection? at wrong
      dsimp only at wrong
      repeat' split at wrong
      all_goals cases wrong
  | _ => exact gap

/-- A fragment is refused before it is stored, or for the gap it leaves when it has been. -/
inductive Refused (assembly : Assembly) (fragment : Fragment) (fault : Fault)
    (after : Assembly) : Prop where
  | before (same : after = assembly) (sound : ¬ fault.LeavesGap)
  | behind (stored : after = assembly.store fragment) (gap : fault.LeavesGap)
      (free : assembly.objection? fragment = none)
      (full : fragment.count.toNat ≤ after.received)

theorem refused_of_add (failed : add fragment assembly = .error fault after) :
    Refused assembly fragment fault after := by
  cases wrong : assembly.objection? fragment with
  | some cause =>
      rw [add_of_objection wrong] at failed
      cases failed
      exact .before rfl (not_leavesGap_of_objection wrong)
  | none =>
      rw [add, wrong] at failed
      dsimp only at failed
      split at failed
      · cases failed
      · next enough =>
          split at failed
          · cases failed
            exact .behind rfl trivial wrong (Nat.le_of_not_lt enough)
          · cases failed

/-! ## Numbers of whatever has arrived -/

theorem numbered_empty : empty.Numbered :=
  ⟨List.nodup_nil, fun _ member => absurd member List.not_mem_nil⟩

/-- What is stored stays stored; only the parts are given away with the payload. -/
theorem left_of_free (free : assembly.objection? fragment = none) :
    left (add fragment) assembly = assembly.store fragment ∨
      left (add fragment) assembly =
        { assembly.store fragment with parts := [], complete := true } := by
  rw [left, add, free]
  dsimp only
  by_cases more : (assembly.store fragment).received < fragment.count.toNat
  · rw [if_pos more]
    exact .inl rfl
  · rw [if_neg more]
    by_cases gap : (assembly.store fragment).covered ≠ fragment.total.toNat
    · rw [if_pos gap]
      exact .inl rfl
    · rw [if_neg gap]
      exact .inr rfl

theorem Numbered.left (numbered : assembly.Numbered) (fragment : Fragment) :
    (left (add fragment) assembly).Numbered := by
  cases wrong : assembly.objection? fragment with
  | some cause =>
      rw [left_of_error (add_of_objection wrong)]
      exact numbered
  | none =>
      have storing := numbered.store wrong
      rcases left_of_free wrong with stored | completed
      · rw [stored]
        exact storing
      · rw [completed]
        exact ⟨storing.distinct, storing.counted⟩

theorem numbered_final (arrivals : List Fragment) : (final add arrivals empty).Numbered :=
  final_induction (fun fragment _ numbered => numbered.left fragment) arrivals numbered_empty

/-! ## Refusals among arrivals -/

/-- Whatever has arrived, a fragment that is refused can be told from one that never arrived
if and only if it leaves a gap: then it counts as received, the payload is not complete, and
every later fragment is refused. -/
theorem alike_iff_of_refused (arrivals : List Fragment)
    (refused : outcome (add fragment) (final add arrivals empty) = .error fault) :
    (Alike (final add (arrivals ++ [fragment]) empty) (final add arrivals empty) ↔
      ¬ fault.LeavesGap) ∧
    (fault.LeavesGap →
      (final add (arrivals ++ [fragment]) empty).received =
        (final add arrivals empty).received + 1 ∧
      (final add (arrivals ++ [fragment]) empty).complete = false ∧
      (final add (arrivals ++ [fragment]) empty).Spent) := by
  have numbered := numbered_final arrivals
  rw [final_append, final, final]
  generalize final add arrivals empty = assembly at refused numbered
  cases result : add fragment assembly with
  | ok value after =>
      rw [outcome_of_ok result] at refused
      cases refused
  | error failure after =>
      rw [outcome_of_error result] at refused
      cases refused
      rw [left_of_error result]
      cases refused_of_add result with
      | before same sound =>
          rw [same]
          exact ⟨iff_of_true (.refl assembly) sound, fun gap => absurd gap sound⟩
      | behind stored gap free full =>
          subst stored
          have more := received_store assembly fragment
          refine ⟨iff_of_false (fun alike => ?_) (not_not_intro gap), fun _ => ⟨more, ?_, ?_⟩⟩
          · have same := alike.received
            omega
          · exact (objection?_eq_none.mp free).1
          · exact (numbered.store free).spent rfl full

/-- A fragment that overlaps the one before it leaves no trace.  One without data stays,
although the third byte is missing, and nothing is accepted behind it. -/
theorem alike_iff_of_refused_overlap :
    Alike (final add [⟨7, 0, 2, 3, 0, [4, 5]⟩, ⟨7, 1, 2, 3, 1, [9]⟩] empty)
      (final add [⟨7, 0, 2, 3, 0, [4, 5]⟩] empty) ∧
    (final add [⟨7, 0, 2, 3, 0, [4, 5]⟩, ⟨7, 1, 2, 3, 2, []⟩] empty).Spent := by
  have overlaps : outcome (add ⟨7, 1, 2, 3, 1, [9]⟩)
      (final add [⟨7, 0, 2, 3, 0, [4, 5]⟩] empty) = .error (.fragment 7 (.overlap 1 2)) := rfl
  have lacks : outcome (add ⟨7, 1, 2, 3, 2, []⟩)
      (final add [⟨7, 0, 2, 3, 0, [4, 5]⟩] empty) = .error (.fragment 7 (.uncovered 2 2 3)) := rfl
  constructor
  · exact (alike_iff_of_refused [⟨7, 0, 2, 3, 0, [4, 5]⟩] overlaps).1.mpr id
  · exact ((alike_iff_of_refused [⟨7, 0, 2, 3, 0, [4, 5]⟩] lacks).2 trivial).2.2

/-- One byte of two is refused, and the two bytes that arrive next are refused for its sake. -/
theorem outcomes_behind_gap :
    outcome (add ⟨7, 0, 1, 2, 0, [5]⟩) empty = .error (.fragment 7 (.uncovered 1 1 2)) ∧
    outcomes add [⟨7, 0, 1, 2, 0, [5, 6]⟩] empty = [.ok (some [5, 6])] ∧
    outcomes add [⟨7, 0, 1, 2, 0, [5, 6]⟩] (final add [⟨7, 0, 1, 2, 0, [5]⟩] empty) =
      [.error (.fragment 7 (.repeatedNumber 0))] ∧
    ¬ Alike (final add [⟨7, 0, 1, 2, 0, [5]⟩] empty) empty := by
  refine ⟨rfl, rfl, rfl, fun alike => ?_⟩
  have received : 1 = 0 := alike.received
  cases received

end Assembly

end MatchTape.Packet
