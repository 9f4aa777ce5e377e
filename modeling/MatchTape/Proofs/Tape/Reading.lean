import MatchTape.Tape.Basic

/-!
# Reading a tape batch by batch

What a successful read says about the tape and the batch, and what the ways to ask
for a batch have to do with each other: a tape whose next batch is known is peeked
at and taken from accordingly.  `Yields` lists batches that are read from the front of a
tape, `ReadsBack` those of a tape that can be read to its end; their frames ascend.
-/

namespace MatchTape.Tape

variable {tape after : Tape} {batch : Batch} {batches : List Batch}

/-! ## One batch -/

theorem batchAhead_of_opening {frame : UInt32} {count : UInt16} {used : Nat}
    (opened : tape.opening = .ok (frame, count, used)) :
    tape.batchAhead =
      if tape.lastFrame.any (frame ≤ ·) then
        .error (.corrupt tape.position (.notLater frame tape.lastFrame))
      else
        match readCommands frame count.toNat (tape.position + used) (tape.rest.drop used) #[] with
        | .error failure => .error failure
        | .ok (commands, stop) => .ok (⟨frame, commands.toList⟩, stop) := by
  unfold batchAhead
  rw [opened]
  change (if _ then _ else _) = _
  split
  · rfl
  · change Except.bind _ _ = _
    cases readCommands frame count.toNat (tape.position + used) (tape.rest.drop used) #[] <;> rfl

/-- A batch that was read was opened by its frame, later than all frames before it. -/
theorem opening_of_batchAhead {stop : Nat} (read : tape.batchAhead = .ok (batch, stop)) :
    (∃ count used, tape.opening = .ok (batch.frame, count, used)) ∧
      ∀ last ∈ tape.lastFrame, last < batch.frame := by
  cases opened : tape.opening with
  | error failure =>
      unfold batchAhead at read
      rw [opened] at read
      cases read
  | ok found =>
      obtain ⟨frame, count, used⟩ := found
      rw [batchAhead_of_opening opened] at read
      split at read
      · cases read
      · next later =>
          cases found :
              readCommands frame count.toNat (tape.position + used) (tape.rest.drop used) #[] with
          | error failure =>
              rw [found] at read
              cases read
          | ok result =>
              rw [found] at read
              cases read
              refine ⟨⟨count, used, rfl⟩, fun last member => ?_⟩
              rw [Option.mem_def.mp member] at later
              simpa using later

theorem batchAhead_of_next (read : next tape = .ok (some batch) after) :
    ∃ stop, tape.isExhausted = false ∧ tape.batchAhead = .ok (batch, stop) ∧
      after = tape.skip (stop - tape.position) batch.frame := by
  unfold next at read
  split at read
  · cases read
  · next unread =>
      cases ahead : tape.batchAhead with
      | error failure =>
          rw [ahead] at read
          cases read
      | ok found =>
          obtain ⟨found, stop⟩ := found
          rw [ahead] at read
          cases read
          exact ⟨stop, by simpa using unread, rfl, rfl⟩

theorem isExhausted_of_next (read : next tape = .ok none after) :
    tape.isExhausted = true ∧ after = tape := by
  unfold next at read
  split at read
  · next exhausted =>
      cases read
      exact ⟨exhausted, rfl⟩
  · cases ahead : tape.batchAhead with
    | error failure =>
        rw [ahead] at read
        cases read
    | ok found =>
        rw [ahead] at read
        cases read

/-! ## Peeking and taking -/

theorem peek_of_next (read : next tape = .ok (some batch) after) :
    tape.peek = .ok (some batch.frame) := by
  obtain ⟨stop, unread, ahead, -⟩ := batchAhead_of_next read
  obtain ⟨⟨count, used, opened⟩, -⟩ := opening_of_batchAhead ahead
  rw [peek, unread, opened]
  rfl

theorem peek_of_isExhausted (exhausted : tape.isExhausted = true) : tape.peek = .ok none := by
  rw [peek, if_pos exhausted]

theorem take_of_isExhausted (exhausted : tape.isExhausted = true) (frame : UInt32) :
    take frame tape = .ok none tape := by
  rw [take, peek_of_isExhausted exhausted]

/-- The batch of a frame is taken in that frame. -/
theorem take_of_next (read : next tape = .ok (some batch) after) :
    take batch.frame tape = .ok (some batch) after := by
  rw [take, peek_of_next read]
  simp only [if_true, read]

/-- A batch stays on the tape before its frame. -/
theorem take_of_next_of_lt (read : next tape = .ok (some batch) after) {frame : UInt32}
    (early : frame < batch.frame) : take frame tape = .ok none tape := by
  have other : batch.frame ≠ frame := fun same => UInt32.lt_irrefl frame (same ▸ early)
  have ahead : ¬ batch.frame < frame := UInt32.not_lt.mpr (UInt32.le_of_lt early)
  rw [take, peek_of_next read]
  simp only [if_neg other, if_neg ahead]

/-! ## What is answered -/

theorem next_cases (tape : Tape) :
    (∃ failure, next tape = .error failure tape) ∨ next tape = .ok none tape ∨
      ∃ batch after, next tape = .ok (some batch) after := by
  unfold next
  split
  · exact .inr (.inl rfl)
  · split
    · exact .inl ⟨_, rfl⟩
    · exact .inr (.inr ⟨_, _, rfl⟩)

/-- A batch that is taken is the next one, and is for the frame that was asked for. -/
theorem take_cases (frame : UInt32) (tape : Tape) :
    (∃ failure, take frame tape = .error failure tape) ∨ take frame tape = .ok none tape ∨
      ∃ batch after, take frame tape = .ok (some batch) after ∧ batch.frame = frame ∧
        next tape = .ok (some batch) after := by
  unfold take
  cases found : tape.peek with
  | error failure => exact .inl ⟨failure, rfl⟩
  | ok due =>
      cases due with
      | none => exact .inr (.inl rfl)
      | some first =>
          by_cases due : first = frame
          · simp only [if_pos due]
            rcases next_cases tape with failed | nothing | ⟨batch, after, read⟩
            · exact .inl failed
            · exact .inr (.inl nothing)
            · have same := found.symm.trans (peek_of_next read)
              cases same
              exact .inr (.inr ⟨batch, after, read, due, read⟩)
          · by_cases missed : first < frame
            · simp only [if_neg due, if_pos missed]
              exact .inl ⟨_, rfl⟩
            · simp only [if_neg due, if_neg missed]
              exact .inr (.inl trivial)

/-! ## Failures -/

def breaksOff : Failure → Bool
  | .badPacket _ _ | .corrupt _ _ => true
  | _ => false

section

variable {failure : Failure}

theorem breaksOff_of_packetAt {offset : Nat} {bytes : List UInt8}
    (failed : packetAt offset bytes = .error failure) : breaksOff failure = true := by
  unfold packetAt at failed
  split at failed
  · cases failed
  · cases failed
    rfl

theorem breaksOff_of_opening (failed : tape.opening = .error failure) :
    breaksOff failure = true := by
  unfold opening at failed
  split at failed
  · next packet =>
      cases failed
      exact breaksOff_of_packetAt packet
  · split at failed
    · cases failed
    · cases failed
      rfl

theorem breaksOff_of_readCommands {frame : UInt32} {left offset : Nat} {bytes : List UInt8}
    {found : Array Packet.Command}
    (failed : readCommands frame left offset bytes found = .error failure) :
    breaksOff failure = true := by
  induction left generalizing offset bytes found with
  | zero => cases failed
  | succ left ih =>
      unfold readCommands at failed
      split at failed
      · cases failed
        rfl
      · split at failed
        · next packet =>
            cases failed
            exact breaksOff_of_packetAt packet
        · split at failed
          · cases failed
            rfl
          · exact ih failed

theorem breaksOff_of_batchAhead (failed : tape.batchAhead = .error failure) :
    breaksOff failure = true := by
  cases opened : tape.opening with
  | error cause =>
      unfold batchAhead at failed
      rw [opened] at failed
      cases failed
      exact breaksOff_of_opening opened
  | ok found =>
      obtain ⟨frame, count, used⟩ := found
      rw [batchAhead_of_opening opened] at failed
      split at failed
      · cases failed
        rfl
      · split at failed
        · next read =>
            cases failed
            exact breaksOff_of_readCommands read
        · cases failed

/-- Taking a batch fails only where the tape breaks off. -/
theorem breaksOff_of_take {frame : UInt32} (failed : take frame tape = .error failure after) :
    breaksOff failure = true := by
  unfold take peek at failed
  split at failed
  · next peeked =>
      cases failed
      split at peeked
      · cases peeked
      · cases opened : tape.opening with
        | error cause =>
            rw [opened] at peeked
            cases peeked
            exact breaksOff_of_opening opened
        | ok found =>
            rw [opened] at peeked
            cases peeked
  · cases failed
  · split at failed
    · unfold next at failed
      split at failed
      · cases failed
      · split at failed
        · next ahead =>
            cases failed
            exact breaksOff_of_batchAhead ahead
        · cases failed
    · split at failed
      · cases failed
        rfl
      · cases failed

end

/-! ## All batches -/

/-- Reading batch after batch gives these batches and leaves the tape behind them. -/
inductive Yields : Tape → List Batch → Tape → Prop where
  | nothing (tape : Tape) : Yields tape [] tape
  | batch {tape middle after : Tape} {batch : Batch} {batches : List Batch}
      (read : next tape = .ok (some batch) middle) (others : Yields middle batches after) :
      Yields tape (batch :: batches) after

/-- Reading batch after batch gives these batches and then the end of the tape. -/
inductive ReadsBack : Tape → List Batch → Prop where
  | ended {tape after : Tape} (read : next tape = .ok none after) : ReadsBack tape []
  | batch {tape after : Tape} {batch : Batch} {batches : List Batch}
      (read : next tape = .ok (some batch) after) (others : ReadsBack after batches) :
      ReadsBack tape (batch :: batches)

namespace Yields

theorem readsBack (yields : Yields tape batches after)
    (ended : next after = .ok none after) : ReadsBack tape batches := by
  induction yields with
  | nothing tape => exact .ended ended
  | batch read others ih => exact .batch read (ih ended)

/-- All batches on a tape are later than what was read before. -/
theorem later (yields : Yields tape batches after) :
    ∀ last ∈ tape.lastFrame, ∀ batch ∈ batches, last < batch.frame := by
  induction yields with
  | nothing tape => exact fun _ _ _ member => absurd member List.not_mem_nil
  | batch read others ih =>
      intro last known found member
      obtain ⟨stop, -, ahead, rfl⟩ := batchAhead_of_next read
      have first := (opening_of_batchAhead ahead).2 last known
      rcases List.mem_cons.mp member with rfl | member
      · exact first
      · exact UInt32.lt_trans first (ih _ rfl found member)

theorem ascending (yields : Yields tape batches after) :
    batches.Pairwise fun first second => first.frame < second.frame := by
  induction yields with
  | nothing tape => exact List.Pairwise.nil
  | batch read others ih =>
      obtain ⟨stop, -, -, rfl⟩ := batchAhead_of_next read
      exact List.Pairwise.cons (others.later _ rfl) ih

end Yields

namespace ReadsBack

theorem yields (reads : ReadsBack tape batches) : ∃ after, Yields tape batches after := by
  induction reads with
  | @ended tape _ read => exact ⟨tape, .nothing tape⟩
  | batch read _ ih =>
      obtain ⟨after, yields⟩ := ih
      exact ⟨after, .batch read yields⟩

theorem later (reads : ReadsBack tape batches) :
    ∀ last ∈ tape.lastFrame, ∀ batch ∈ batches, last < batch.frame := by
  obtain ⟨after, yields⟩ := reads.yields
  exact yields.later

theorem ascending (reads : ReadsBack tape batches) :
    batches.Pairwise fun first second => first.frame < second.frame := by
  obtain ⟨after, yields⟩ := reads.yields
  exact yields.ascending

/-- Asking for the batch of a frame, when no earlier one is left, gives that batch if
there is one and leaves all later batches on the tape. -/
theorem take (reads : ReadsBack tape batches) {frame : UInt32}
    (current : ∀ batch ∈ batches, frame ≤ batch.frame) :
    ∃ after, Tape.take frame tape = .ok (batches.find? (·.frame == frame)) after ∧
      ReadsBack after (batches.filter fun batch => decide (frame < batch.frame)) := by
  cases reads with
  | ended read =>
      exact ⟨tape, take_of_isExhausted (isExhausted_of_next read).1 frame, .ended read⟩
  | @batch _ after first others read reads =>
      obtain ⟨stop, -, -, moved⟩ := batchAhead_of_next read
      have unread : ∀ batch ∈ others, first.frame < batch.frame :=
        reads.later _ (moved ▸ rfl)
      by_cases due : first.frame = frame
      · have found : (first :: others).find? (·.frame == frame) = some first :=
          List.find?_cons_of_pos (by simpa using due)
        have left : ((first :: others).filter fun batch => decide (frame < batch.frame)) =
            others := by
          rw [List.filter_cons_of_neg (by simp [due]), List.filter_eq_self]
          exact fun batch member => by simpa using due ▸ unread batch member
        rw [found, left]
        exact ⟨after, due ▸ take_of_next read, reads⟩
      · have early : frame < first.frame :=
          UInt32.lt_of_le_of_ne (current first List.mem_cons_self) fun same => due same.symm
        have ahead : ∀ batch ∈ first :: others, frame < batch.frame := by
          intro batch member
          rcases List.mem_cons.mp member with rfl | member
          · exact early
          · exact UInt32.lt_trans early (unread batch member)
        have found : (first :: others).find? (·.frame == frame) = none :=
          List.find?_eq_none.mpr fun batch member same =>
            UInt32.lt_irrefl frame ((beq_iff_eq.mp same) ▸ ahead batch member)
        have left : ((first :: others).filter fun batch => decide (frame < batch.frame)) =
            first :: others :=
          List.filter_eq_self.mpr fun batch member => decide_eq_true (ahead batch member)
        rw [found, left]
        exact ⟨tape, take_of_next_of_lt read early, .batch read reads⟩

end ReadsBack

end MatchTape.Tape
