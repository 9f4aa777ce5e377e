import MatchTape.Proofs.Attempts
import MatchTape.Proofs.Tape.Draft

/-!
# What is read of the batches that a draft accepts

Batches are offered to a draft one after another; those that it refuses leave no trace.  The
finished recording opens, and the batches that were accepted are read from it in their order
up to the first that holds a fragment out of range, for a draft accepts such a fragment and
a tape does not.
-/

namespace MatchTape.Tape

open Packet Record Attempts

def Batch.InRange (batch : Batch) : Prop :=
  ∀ command ∈ batch.commands, command.body.InRange

namespace Draft

variable {draft after : Draft} {batch : Batch} {batches : List Batch}

theorem eq_of_add_error {failure : Failure} (refused : add batch draft = .error failure after) :
    after = draft := by
  unfold add at refused
  split at refused
  · cases refused
  · split at refused <;> cases refused
    rfl

theorem sheet_left_add (batch : Batch) (draft : Draft) :
    (Attempts.left (add batch) draft).sheet = draft.sheet := by
  unfold Attempts.left add
  cases batch.commands.isEmpty with
  | true => rfl
  | false => cases draft.objection? batch <;> rfl

/-- Among the batches that are offered to a new draft, those with commands that it accepts. -/
def recorded (sheet : MatchSheet) (offers : List Batch) : List Batch :=
  (accepted add offers (begin sheet)).filter (!·.commands.isEmpty)

theorem mem_offers_of_mem_recorded {sheet : MatchSheet} {offers : List Batch}
    (member : batch ∈ recorded sheet offers) : batch ∈ offers :=
  (accepted_sublist offers _).subset (List.mem_filter.mp member).1

theorem Holds.final (holds : draft.Holds batches) (offers : List Batch) :
    (Attempts.final Draft.add offers draft).Holds
        (batches ++ (Attempts.accepted Draft.add offers draft).filter (!·.commands.isEmpty)) ∧
      (Attempts.final Draft.add offers draft).sheet = draft.sheet := by
  induction offers generalizing draft batches with
  | nil =>
      rw [Attempts.accepted, List.filter_nil, List.append_nil]
      exact ⟨holds, rfl⟩
  | cons batch offers ih =>
      rw [Attempts.final]
      cases result : Draft.add batch draft with
      | ok value after =>
          obtain ⟨holding, sheet⟩ := holds.add result
          obtain ⟨final, kept⟩ := ih holding
          rw [left_of_ok result, accepted_cons_of_ok result]
          rw [List.append_assoc, ← List.filter_append, List.singleton_append] at final
          exact ⟨final, kept.trans sheet⟩
      | error failure after =>
          rw [left_of_error result, accepted_cons_of_error result, eq_of_add_error result]
          exact ih holds

/-! ## Offers without a trace -/

theorem left_add_of_isEmpty (batch : Batch) (empty : (!batch.commands.isEmpty) = false)
    (draft : Draft) : Attempts.left (add batch) draft = draft := by
  rw [Bool.not_eq_false'] at empty
  exact left_of_ok (if_pos empty)

/-- The draft that the offers lead to is made by the recorded batches alone, and each of them is
accepted among these as it was among all. -/
theorem recorded_alone (sheet : MatchSheet) (offers : List Batch) :
    accepted add (recorded sheet offers) (begin sheet) = recorded sheet offers ∧
      Attempts.final add (recorded sheet offers) (begin sheet) =
        Attempts.final add offers (begin sheet) := by
  obtain ⟨again, ends⟩ := accepted_alone (fun _ _ _ _ => eq_of_add_error) offers (begin sheet)
  obtain ⟨filled, same⟩ := filter_alone left_add_of_isEmpty
    (accepted add offers (begin sheet)) (begin sheet)
  rw [again] at filled
  exact ⟨filled, same.trans ends⟩

/-- Batches that are refused leave no trace in the finished recording, and neither do those
without commands: it is made by the other batches alone, all of which are accepted then too and
have ascending frames. -/
theorem finish_recorded (sheet : MatchSheet) (offers : List Batch) (frameCount : UInt32) :
    (Attempts.final add offers (begin sheet)).finish frameCount =
        (Attempts.final add (recorded sheet offers) (begin sheet)).finish frameCount ∧
      accepted add (recorded sheet offers) (begin sheet) = recorded sheet offers ∧
      (recorded sheet offers).Pairwise fun first second => first.frame < second.frame := by
  obtain ⟨again, same⟩ := recorded_alone sheet offers
  obtain ⟨holds, -⟩ := (holds_begin sheet).final offers
  exact ⟨by rw [same], again, holds.ascending⟩

/-! ## Reading what was recorded -/

/-- A recording opens with its sheet.  The batches that were accepted are read from it one
after another, as they arrive, and then it is at its end; but where one of them holds a
fragment out of range, reading stops in front of it. -/
theorem finish_yields (sheet : MatchSheet) (offers : List Batch) (frameCount : UInt32)
    (name : String) (room : { sheet with frameCount }.bytes.length < 2 ^ 32)
    (fits : ∀ batch ∈ offers, ∀ command ∈ batch.commands, command.body.Fits) :
    (∀ batch ∈ recorded sheet offers, ∀ command ∈ batch.commands,
      command.sent.kind = command.kind ∧
      (command.kind.carries .frame = true → command.sent.header.frame = batch.frame)) ∧
    ∃ tape,
      ofBytes name ((Attempts.final add offers (begin sheet)).finish frameCount) = .ok tape ∧
      tape.sheet = { sheet with frameCount } ∧
      ((∀ batch ∈ recorded sheet offers, batch.InRange) →
        ∃ after, Yields tape ((recorded sheet offers).map Batch.sent) after ∧
          next after = .ok none after ∧ after.isExhausted = true) ∧
      ∀ before batch behind, recorded sheet offers = before ++ batch :: behind →
        (∀ earlier ∈ before, earlier.InRange) → ¬ batch.InRange →
        ∃ after place skipped cause, Yields tape (before.map Batch.sent) after ∧
          next after = .error (.badPacket place (.violation skipped cause)) after := by
  obtain ⟨holds, same⟩ := (holds_begin sheet).final offers
  rw [List.nil_append] at holds
  change Holds _ (recorded sheet offers) at holds
  change _ = sheet at same
  have recordedFits : ∀ batch ∈ recorded sheet offers, ∀ command ∈ batch.commands,
      command.body.Fits := fun batch member => fits batch (mem_offers_of_mem_recorded member)
  constructor
  · intro batch member command listed
    have kept := (holds.accepted batch member).kept command listed
    refine ⟨command.kind_sent, fun carried => ?_⟩
    rw [strays, carried, Bool.true_and, bne_eq_false_iff_eq] at kept
    change (command.header.normalized command.kind).frame = _
    rw [Header.normalized, if_pos carried, kept]
  · obtain ⟨tape, opened, sheet_eq, fresh, unread⟩ := ofBytes_finish
      (Attempts.final add offers (begin sheet)) (same.symm ▸ room) name
    refine ⟨tape, opened, same ▸ sheet_eq, ?_, ?_⟩
    · intro inRange
      rw [← List.append_nil (recorded sheet offers)] at holds
      obtain ⟨after, yields, left, -⟩ := holds.yields recordedFits inRange fresh unread
      exact ⟨after, yields, next_of_rest_eq_nil left⟩
    · intro before batch behind split inRange outside
      rw [split] at holds recordedFits
      obtain ⟨fitsBefore, fitsBehind⟩ := List.forall_mem_append.mp recordedFits
      obtain ⟨after, yields, left, later⟩ := holds.yields fitsBefore inRange fresh unread
      have accepted := holds.accepted batch (List.mem_append_right _ List.mem_cons_self)
      obtain ⟨place, skipped, cause, refused⟩ := next_of_rest_outside accepted.few accepted.kept
        (fitsBehind batch List.mem_cons_self) outside left
        fun last known => later last known batch List.mem_cons_self
      exact ⟨after, place, skipped, cause, yields, refused⟩

/-- A batch of one fragment, which has a number and says that there are three. -/
def oneOfThree (frame number : UInt32) : Batch :=
  ⟨frame, [⟨⟨2, 1, 0, 9⟩, .wrapper ⟨7, number, 3, 6, 2, [5, 6]⟩⟩]⟩

/-- The last of three fragments is read.  A batch for the same frame and one without
commands are not recorded, and reading stops in front of the fourth of three. -/
theorem finish_yields_third :
    ∃ tape, ofBytes "a.rep"
        ((Attempts.final add [oneOfThree 3 2, ⟨3, [⟨{}, .keepAlive⟩]⟩, ⟨4, []⟩, oneOfThree 5 3]
          (begin {})).finish 6) = .ok tape ∧
      ∃ after place skipped cause, Yields tape [(oneOfThree 3 2).sent] after ∧
        next after = .error (.badPacket place (.violation skipped cause)) after := by
  have accepted : recorded {} [oneOfThree 3 2, ⟨3, [⟨{}, .keepAlive⟩]⟩, ⟨4, []⟩, oneOfThree 5 3] =
      [oneOfThree 3 2, oneOfThree 5 3] := rfl
  obtain ⟨-, tape, opened, -, -, stops⟩ := finish_yields {}
    [oneOfThree 3 2, ⟨3, [⟨{}, .keepAlive⟩]⟩, ⟨4, []⟩, oneOfThree 5 3] 6 "a.rep"
    (by decide) (by simp [oneOfThree, Body.Fits])
  refine ⟨tape, opened, stops [oneOfThree 3 2] (oneOfThree 5 3) [] accepted ?_ ?_⟩
  · simp [oneOfThree, Batch.InRange, Body.InRange, Fragment.InRange]
  · simp [oneOfThree, Batch.InRange, Body.InRange, Fragment.InRange]

/-- A draft accepts the fourth of three fragments, which its recording then cannot give
back. -/
theorem add_fourth_of_three :
    ∃ draft tape failure, add (oneOfThree 3 3) (begin {}) = .ok () draft ∧
      ofBytes "a.rep" (draft.finish 4) = .ok tape ∧ next tape = .error failure tape := by
  have added : add (oneOfThree 3 3) (begin {}) =
      .ok () ⟨{}, (oneOfThree 3 3).bytes.toArray, some 3⟩ := rfl
  have room : ({ ({} : MatchSheet) with frameCount := 4 }).bytes.length < 2 ^ 32 := by decide
  obtain ⟨tape, opened, -, fresh, unread⟩ := ofBytes_finish
    ⟨{}, (oneOfThree 3 3).bytes.toArray, some 3⟩ room "a.rep"
  have outside : ¬ (oneOfThree 3 3).InRange := by
    simp [oneOfThree, Batch.InRange, Body.InRange, Fragment.InRange]
  have first : ∀ last ∈ tape.lastFrame, last < (oneOfThree 3 3).frame := by simp [fresh]
  rw [← List.append_nil (Array.toList _)] at unread
  obtain ⟨place, skipped, cause, refused⟩ := next_of_rest_outside (by decide) (by decide)
    (by simp [oneOfThree, Body.Fits]) outside unread first
  exact ⟨_, tape, _, added, opened, refused⟩

end Draft

/-! ## Recordings of matches without players -/

/-- The recording of a match without players, of which batches are written down. -/
def recordingOf (frameCount : UInt32) (batches : List Batch) : List UInt8 :=
  (Attempts.final Draft.add batches (.begin {})).finish frameCount

theorem length_bytes_frameCount_le (frameCount : UInt32) :
    ({ frameCount } : MatchSheet).bytes.length ≤ 20 := by
  change ((Entry.ofNumber 4 frameCount.toUInt64 ++ [] ++ []).flatMap Entry.bytes).length ≤ 20
  rw [List.append_nil, List.append_nil]
  exact Entry.length_ofNumber_le 4 _

/-- Such a recording opens, and batches that the draft accepts and whose packets can be read back
are read back from it. -/
theorem readsBack_recordingOf {batches : List Batch} (name : String) (frameCount : UInt32)
    (all : Draft.recorded {} batches = batches)
    (fits : ∀ batch ∈ batches, ∀ command ∈ batch.commands, command.body.Fits)
    (inRange : ∀ batch ∈ batches, batch.InRange) :
    ∃ tape, ofBytes name (recordingOf frameCount batches) = .ok tape ∧
      tape.sheet = { frameCount } ∧ ReadsBack tape (batches.map Batch.sent) := by
  obtain ⟨holds, sheet⟩ := (Draft.holds_begin {}).final batches
  change Draft.Holds _ (Draft.recorded {} batches) at holds
  change _ = ({} : MatchSheet) at sheet
  rw [all] at holds
  have room : { ({} : MatchSheet) with frameCount }.bytes.length < 2 ^ 32 :=
    Nat.lt_of_le_of_lt (length_bytes_frameCount_le frameCount) (by decide)
  obtain ⟨tape, opened, written, fresh, unread⟩ :=
    (Attempts.final Draft.add batches (.begin {})).ofBytes_finish (sheet.symm ▸ room) name
  rw [sheet] at written
  exact ⟨tape, opened, written, holds.readsBack fits inRange fresh unread⟩

end MatchTape.Tape
