import MatchTape.Proofs.Tape.Cursor

/-!
# Operations on a tape

A tape may be peeked at, read, taken from and sought in, in any order, whatever bytes it holds.  It
never leaves its packets; an operation that fails or has nothing to give changes nothing; and
between two seeks the frames of the batches that are given ascend.
-/

namespace MatchTape.Tape

open Packet Attempts

inductive Operation where
  | peek
  | next
  | take (frame : UInt32)
  | seek (offset : Nat)
  deriving DecidableEq, Repr

inductive Reply where
  | due (frame : Option UInt32)
  | batch (batch : Option Batch)
  | moved
  deriving DecidableEq, Repr

def Operation.perform : Operation → EStateM Failure Tape Reply
  | .peek => fun tape =>
      match tape.peek with
      | .ok frame => .ok (.due frame) tape
      | .error failure => .error failure tape
  | .next => Reply.batch <$> Tape.next
  | .take frame => Reply.batch <$> Tape.take frame
  | .seek offset => (fun _ => Reply.moved) <$> Tape.seek offset

def given? : Except Failure Reply → Option Batch
  | .ok (.batch batch) => batch
  | _ => none

/-- The batches that some operations give, one after another. -/
def given (operations : List Operation) (tape : Tape) : List Batch :=
  (outcomes Operation.perform operations tape).filterMap given?

variable {tape after : Tape} {batch : Batch} {operation : Operation}
  {outcome : Except Failure Reply}

/-! ## One operation -/

theorem seek_cases (offset : Nat) (tape : Tape) :
    (∃ failure, seek offset tape = .error failure tape) ∨
      ∃ after, seek offset tape = .ok () after := by
  unfold seek
  split
  · exact .inr ⟨_, rfl⟩
  · exact .inl ⟨_, rfl⟩

/-- What an operation can come to: it fails, tells the frame that is due, has no batch to give,
reads the next batch, or goes to another place among the packets. -/
inductive Performed (tape : Tape) : Operation → Except Failure Reply → Tape → Prop where
  | failed (operation : Operation) (failure : Failure) :
      Performed tape operation (.error failure) tape
  | peeked {frame : Option UInt32} (found : tape.peek = .ok frame) :
      Performed tape .peek (.ok (.due frame)) tape
  | nothing (operation : Operation) : Performed tape operation (.ok (.batch none)) tape
  | read {operation : Operation} {batch : Batch} {after : Tape}
      (asked : operation = .next ∨ operation = .take batch.frame)
      (read : next tape = .ok (some batch) after) :
      Performed tape operation (.ok (.batch (some batch))) after
  | sought {offset : Nat} {after : Tape} (sought : seek offset tape = .ok () after) :
      Performed tape (.seek offset) (.ok .moved) after

theorem performed (operation : Operation) (tape : Tape) :
    Performed tape operation (Attempts.outcome operation.perform tape)
      (left operation.perform tape) := by
  cases operation with
  | peek =>
      cases found : tape.peek with
      | error failure =>
          simp only [Attempts.outcome, left, Operation.perform, found]
          exact .failed _ failure
      | ok frame =>
          simp only [Attempts.outcome, left, Operation.perform, found]
          exact .peeked found
  | next =>
      rw [Operation.perform, outcome_map, left_map]
      rcases next_cases tape with ⟨failure, done⟩ | done | ⟨batch, after, done⟩
      all_goals rw [Attempts.outcome, left, done]
      · exact .failed _ failure
      · exact .nothing _
      · exact .read (.inl rfl) done
  | take frame =>
      rw [Operation.perform, outcome_map, left_map]
      rcases take_cases frame tape with ⟨failure, done⟩ | done | ⟨batch, after, done, due, read⟩
      all_goals rw [Attempts.outcome, left, done]
      · exact .failed _ failure
      · exact .nothing _
      · exact .read (.inr (due ▸ rfl)) read
  | seek offset =>
      rw [Operation.perform, outcome_map, left_map]
      rcases seek_cases offset tape with ⟨failure, done⟩ | ⟨after, done⟩
      all_goals rw [Attempts.outcome, left, done]
      · exact .failed _ failure
      · exact .sought done

namespace Performed

/-- Only a batch that is read and a place that is sought move the tape. -/
theorem eq_of_still (done : Performed tape operation outcome after)
    (still : operation = .peek ∨ (∃ failure, outcome = .error failure) ∨
      outcome = .ok (.batch none)) : after = tape := by
  cases done with
  | failed | peeked | nothing => rfl
  | read asked => rcases asked with rfl | rfl <;> simp at still
  | sought => simp at still

theorem next_of_batch (done : Performed tape operation (.ok (.batch (some batch))) after) :
    (operation = .next ∨ operation = .take batch.frame) ∧
      Tape.next tape = .ok (some batch) after := by
  cases done with
  | read asked read => exact ⟨asked, read⟩

theorem sameRecording {start : Tape} (done : Performed tape operation outcome after)
    (same : start.SameRecording tape) : start.SameRecording after := by
  cases done with
  | failed | peeked | nothing => exact same
  | read _ read => exact same.next read
  | sought sought => exact (same.moved sought).1

theorem within (done : Performed tape operation outcome after) (within : tape.Within) :
    after.Within := by
  cases done with
  | failed | peeked | nothing => exact within
  | read _ read => exact within.next read
  | sought sought => exact within_of_seek sought

end Performed

/-! ## One after another -/

/-- As long as no place is sought, the batches that are given are those that are read from the
tape one after another. -/
theorem yields_given (operations : List Operation) (tape : Tape)
    (unsought : .ok .moved ∉ outcomes Operation.perform operations tape) :
    Yields tape (given operations tape) (final Operation.perform operations tape) := by
  induction operations generalizing tape with
  | nil => exact .nothing tape
  | cons operation operations ih =>
      rw [outcomes, List.mem_cons, not_or] at unsought
      obtain ⟨first, others⟩ := unsought
      have yields := ih _ others
      have done := performed operation tape
      rw [given, outcomes, final]
      generalize Attempts.outcome operation.perform tape = outcome at *
      generalize left operation.perform tape = after at *
      cases done with
      | failed | peeked | nothing => exact yields
      | read _ read => exact .batch read yields
      | sought => exact absurd rfl first

/-- Whatever has been asked of a tape since it was opened, it stands among the packets of its
recording.  Peeking, failing and having no batch to give change nothing, so that asking again is
answered in the same way.  A batch that is taken is for the frame that was asked for, which could
be peeked at, and all commands of a batch belong to its frame.  As long as no place is sought, the
frames of the batches that are given ascend. -/
theorem valid_after_operations {name : String} {contents : List UInt8}
    (opened : ofBytes name contents = .ok tape) (operations : List Operation) :
    let there := final Operation.perform operations tape
    (there.contents = contents ∧ there.packetsStart = tape.packetsStart ∧
      there.packetsStart ≤ there.position ∧ there.position ≤ contents.length) ∧
    (∀ operation : Operation,
      (operation = .peek ∨
        (∃ failure, Attempts.outcome operation.perform there = .error failure) ∨
        Attempts.outcome operation.perform there = .ok (.batch none)) →
      left operation.perform there = there ∧
        ∀ times, outcomes Operation.perform (List.replicate times operation) there =
          List.replicate times (Attempts.outcome operation.perform there)) ∧
    (∀ frame batch,
      Attempts.outcome (Operation.take frame).perform there = .ok (.batch (some batch)) →
      batch.frame = frame ∧
        Attempts.outcome Operation.peek.perform there = .ok (.due (some frame))) ∧
    (∀ (operation : Operation) (batch : Batch),
      Attempts.outcome operation.perform there = .ok (.batch (some batch)) →
      ∀ command ∈ batch.commands, command.kind.carries .frame = true →
        command.header.frame = batch.frame) ∧
    ∀ more, .ok .moved ∉ outcomes Operation.perform more there →
      (given more there).Pairwise fun first second => first.frame < second.frame := by
  intro there
  have begun := opened_of_ofBytes opened
  have stays : tape.SameRecording there ∧ there.Within :=
    final_induction (motive := fun there => tape.SameRecording there ∧ there.Within)
      (fun operation there ⟨same, within⟩ => ⟨(performed operation there).sameRecording same,
        (performed operation there).within within⟩)
      operations ⟨.refl tape, begun.within⟩
  obtain ⟨same, within⟩ := stays
  have contents_eq : there.contents = contents := same.contents.trans begun.contents_eq
  refine ⟨⟨contents_eq, same.packetsStart, within.start, contents_eq ▸ within.stop⟩,
    fun operation still => ?_, fun frame batch taken => ?_, fun operation batch given => ?_,
    fun more unsought => (yields_given more there unsought).ascending⟩
  · have unmoved := (performed operation there).eq_of_still still
    exact ⟨unmoved, outcomes_replicate unmoved⟩
  · have done := performed (.take frame) there
    rw [taken] at done
    obtain ⟨asked, read⟩ := done.next_of_batch
    obtain rfl : frame = batch.frame := by simpa using asked
    refine ⟨rfl, ?_⟩
    simp only [Attempts.outcome, Operation.perform, peek_of_next read]
  · have done := performed operation there
    rw [given] at done
    obtain ⟨front, packets, packed, -⟩ := packed_of_next done.next_of_batch.2
    intro command member carries
    have kept := packed.kept command member
    rw [strays, carries] at kept
    simpa using kept

/-- Two bytes behind an empty sheet are no packets: after peeking at them and going to the second,
reading fails there again and again. -/
theorem valid_after_operations_stray :
    ∃ tape, ofBytes "a.rep" (magic ++ [1, 0, 0, 0, 0, 255, 255]) = .ok tape ∧
      ∀ times, outcomes Operation.perform (List.replicate times .next)
          (final Operation.perform [.peek, .seek 10] tape) =
        List.replicate times (.error (.badPacket 10 (.violation 0 (.wrongTag .kind 255)))) := by
  have opened : ofBytes "a.rep" (magic ++ [1, 0, 0, 0, 0, 255, 255]) =
      .ok (fresh "a.rep" (magic ++ [1, 0, 0, 0, 0, 255, 255]) {} 9) :=
    ofBytes_eq_ok_iff.mpr ⟨0, {}, ⟨⟨0, 0, 0, 0, by decide, by decide⟩, by decide, by decide⟩, rfl⟩
  obtain ⟨-, still, -⟩ := valid_after_operations opened [.peek, .seek 10]
  exact ⟨_, opened, (still .next (.inr (.inl ⟨_, rfl⟩))).2⟩

end MatchTape.Tape
