import MatchTape.Proofs.Tape.Packing

/-!
# Where a tape stands

Taking batches moves a tape forward among its packets and changes nothing else.  What is
taken depends on where the tape stands and on nothing that was read before, as long as
the frame that is asked for is later than that.
-/

namespace MatchTape.Tape

open Packet Record

variable {tape other after : Tape} {frame : UInt32}

/-! ## Opening -/

def fresh (name : String) (contents : List UInt8) (sheet : MatchSheet) (start : Nat) : Tape where
  name := name
  contents := contents
  sheet := sheet
  digest := Digest.Sha256.hex contents
  packetsStart := start
  position := start
  lastFrame := none
  rest := contents.drop start
  rest_eq := rfl

structure Introduced (contents : List UInt8) (length : Nat) (sheet : MatchSheet) : Prop where
  preamble : ∃ l0 l1 l2 l3, contents.take preambleSize = magic ++ version :: [l0, l1, l2, l3] ∧
    Word.ofBytes [l0, l1, l2, l3] = length
  room : preambleSize + length ≤ contents.length
  record : MatchSheet.ofBytes? ((contents.drop preambleSize).take length) = some sheet

theorem ofBytes_eq_ok_iff {name : String} {contents : List UInt8} :
    ofBytes name contents = .ok tape ↔ ∃ length sheet, Introduced contents length sheet ∧
      tape = fresh name contents sheet (preambleSize + length) := by
  constructor
  · intro opened
    unfold ofBytes at opened
    split at opened
    · next a b c d found l0 l1 l2 l3 preamble =>
        split at opened
        · cases opened
        · next letters =>
            split at opened
            · cases opened
            · next current =>
                simp only at opened
                split at opened
                · cases opened
                · next room =>
                    split at opened
                    · cases opened
                    · next sheet record =>
                        cases opened
                        have front : [a, b, c, d] ++ found :: [l0, l1, l2, l3] =
                            magic ++ version :: [l0, l1, l2, l3] := by
                          rw [not_not.mp letters, not_not.mp current]
                        exact ⟨_, sheet, ⟨⟨l0, l1, l2, l3, preamble.trans front, rfl⟩,
                          Nat.le_of_not_lt room, record⟩, rfl⟩
    · cases opened
  · rintro ⟨length, sheet, ⟨⟨l0, l1, l2, l3, preamble, rfl⟩, room, record⟩, rfl⟩
    have letters : magic = [76, 75, 82, 80] := by decide
    rw [letters] at preamble
    rw [ofBytes, preamble]
    simp only [List.cons_append, List.nil_append, letters, ne_eq, not_true_eq_false, if_false,
      if_neg (Nat.not_lt.mpr room), record]
    rfl

/-- What stands behind the sheet may be anything. -/
theorem Introduced.append {contents : List UInt8} {length : Nat} {sheet : MatchSheet}
    (introduced : Introduced contents length sheet) (packets : List UInt8) :
    Introduced (contents.take (preambleSize + length) ++ packets) length sheet := by
  obtain ⟨⟨l0, l1, l2, l3, preamble, digits⟩, room, record⟩ := introduced
  have size := List.length_take_of_le room
  refine ⟨⟨l0, l1, l2, l3, ?_, digits⟩, ?_, ?_⟩
  · rw [List.take_append_of_le_length (by omega), List.take_take,
      Nat.min_eq_left (Nat.le_add_right _ _), preamble]
  · rw [List.length_append, size]
    exact Nat.le_add_right _ _
  · rw [List.drop_append_of_le_length (by omega), List.take_append_of_le_length, List.drop_take,
      Nat.add_sub_cancel_left, List.take_take, Nat.min_self, record]
    rw [List.length_drop, size, Nat.add_sub_cancel_left]

/-- Up to where its packets begin, a recording opens alike whatever its packets are. -/
theorem opened_front {name : String} {contents : List UInt8}
    (opened : ofBytes name contents = .ok tape) :
    ∃ front, contents = front ++ tape.rest ∧ front.length = tape.packetsStart ∧
      tape.position = tape.packetsStart ∧ tape.lastFrame = none ∧
      ∀ packets, ∃ other, ofBytes name (front ++ packets) = .ok other ∧
        other.sheet = tape.sheet ∧ other.position = tape.position ∧ other.lastFrame = none ∧
        other.rest = packets := by
  obtain ⟨length, sheet, introduced, rfl⟩ := ofBytes_eq_ok_iff.mp opened
  have size := List.length_take_of_le introduced.room
  refine ⟨_, (List.take_append_drop _ _).symm, size, rfl, rfl, fun packets => ?_⟩
  exact ⟨_, ofBytes_eq_ok_iff.mpr ⟨length, sheet, introduced.append packets, rfl⟩, rfl, rfl, rfl,
    List.drop_left' size⟩

/-! ## Places -/

/-- The tape stands among its packets or at their end. -/
structure Within (tape : Tape) : Prop where
  start : tape.packetsStart ≤ tape.position
  stop : tape.position ≤ tape.contents.length

/-- The tape was opened from a recording of this name and with these contents. -/
structure Opened (name : String) (contents : List UInt8) (tape : Tape) : Prop where
  name_eq : tape.name = name
  contents_eq : tape.contents = contents
  digest_eq : tape.digest = Digest.Sha256.hex contents
  sheet : ∃ record : List UInt8,
    record.length ≤ contents.length ∧ MatchSheet.ofBytes? record = some tape.sheet
  unread : tape.lastFrame = none
  within : tape.Within

theorem opened_of_ofBytes {name : String} {contents : List UInt8}
    (found : ofBytes name contents = .ok tape) : Opened name contents tape := by
  obtain ⟨length, sheet, introduced, rfl⟩ := ofBytes_eq_ok_iff.mp found
  refine ⟨rfl, rfl, rfl, ⟨_, ?_, introduced.record⟩, rfl, Nat.le_refl _, introduced.room⟩
  rw [List.length_take, List.length_drop]
  omega

/-- A tape that was opened is put where it stands. -/
theorem Opened.seek_position {name : String} {contents : List UInt8}
    (opened : Opened name contents tape) : Tape.seek tape.position tape = .ok () tape := by
  rw [Tape.seek, if_pos ⟨opened.within.start, opened.within.stop⟩]
  simp only [← opened.unread, ← tape.rest_eq]

theorem length_rest (tape : Tape) : tape.rest.length = tape.contents.length - tape.position := by
  rw [tape.rest_eq, List.length_drop]

theorem opening_of_peek (found : tape.peek = .ok (some frame)) :
    tape.isExhausted = false ∧ ∃ count used, tape.opening = .ok (frame, count, used) := by
  unfold peek at found
  split at found
  · cases found
  · next unread =>
      refine ⟨by simpa using unread, ?_⟩
      cases opened : tape.opening with
      | error failure =>
          rw [opened] at found
          cases found
      | ok result =>
          obtain ⟨frame, count, used⟩ := result
          rw [opened] at found
          cases found
          exact ⟨count, used, rfl⟩

theorem Within.next (within : tape.Within) {batch : Batch}
    (read : Tape.next tape = .ok (some batch) after) : after.Within := by
  obtain ⟨front, packets, -, unread, -, moved⟩ := packed_of_next read
  have size := tape.length_rest
  have inside := within.stop
  rw [unread, List.length_append, List.length_append] at size
  rw [moved]
  refine ⟨Nat.le_trans within.start (Nat.le_add_right _ _), ?_⟩
  change tape.position + (front.length + packets.length) ≤ tape.contents.length
  omega

/-! ## Two tapes that stand at the same place -/

theorem opening_congr (position : other.position = tape.position)
    (rest : other.rest = tape.rest) : other.opening = tape.opening := by
  unfold opening
  rw [position, rest]

theorem peek_congr (position : other.position = tape.position) (rest : other.rest = tape.rest) :
    other.peek = tape.peek := by
  unfold peek isExhausted
  rw [opening_congr position rest, rest]

structure SameRecording (tape other : Tape) : Prop where
  name : other.name = tape.name
  contents : other.contents = tape.contents
  sheet : other.sheet = tape.sheet
  digest : other.digest = tape.digest
  packetsStart : other.packetsStart = tape.packetsStart

theorem SameRecording.refl (tape : Tape) : tape.SameRecording tape :=
  ⟨rfl, rfl, rfl, rfl, rfl⟩

theorem SameRecording.skip (same : tape.SameRecording other) (count : Nat) (frame : UInt32) :
    tape.SameRecording (other.skip count frame) :=
  ⟨same.name, same.contents, same.sheet, same.digest, same.packetsStart⟩

theorem SameRecording.next {batch : Option Batch} {after : Tape}
    (same : tape.SameRecording other) (read : Tape.next other = .ok batch after) :
    tape.SameRecording after := by
  unfold Tape.next at read
  split at read
  · cases read
    exact same
  · split at read
    · cases read
    · cases read
      exact same.skip _ _

/-- A tape that has given the batch of a frame holds the recording that it held before. -/
theorem SameRecording.take {frame : UInt32} {batch : Option Batch} {after : Tape}
    (same : tape.SameRecording other) (taken : Tape.take frame other = .ok batch after) :
    tape.SameRecording after := by
  rcases take_cases frame other with ⟨failure, failed⟩ | nothing | ⟨first, moved, found, -, read⟩
  · rw [failed] at taken
    cases taken
  · rw [nothing] at taken
    cases taken
    exact same
  · rw [found] at taken
    cases taken
    exact same.next read

/-- Two tapes with the same contents stand at the same place, and neither has read a batch
of this frame or of a later one. -/
structure Level (frame : UInt32) (tape other : Tape) : Prop where
  contents : other.contents = tape.contents
  position : other.position = tape.position
  earlier : ∀ last ∈ tape.lastFrame, last < frame
  earlierOther : ∀ last ∈ other.lastFrame, last < frame

theorem inside_of_seek {offset : Nat} (sought : seek offset tape = .ok () after) :
    tape.packetsStart ≤ offset ∧ offset ≤ tape.contents.length := by
  unfold seek at sought
  split at sought
  · next inside => exact inside
  · cases sought

theorem SameRecording.moved {offset : Nat} (same : tape.SameRecording other)
    (sought : Tape.seek offset other = .ok () after) :
    tape.SameRecording after ∧ after.position = offset := by
  have inside := inside_of_seek sought
  unfold Tape.seek at sought
  rw [if_pos inside] at sought
  cases sought
  exact ⟨⟨same.name, same.contents, same.sheet, same.digest, same.packetsStart⟩, rfl⟩

theorem within_of_seek {offset : Nat} (sought : seek offset tape = .ok () after) :
    after.Within := by
  obtain ⟨same, place⟩ := (SameRecording.refl tape).moved sought
  have inside := inside_of_seek sought
  exact ⟨by rw [same.packetsStart, place]; exact inside.1,
    by rw [same.contents, place]; exact inside.2⟩

/-- A tape can be put where another tape of the same recording stands. -/
theorem SameRecording.seek (same : tape.SameRecording other) (within : other.Within) :
    ∃ there, Tape.seek other.position tape = .ok () there ∧ tape.SameRecording there ∧
      there.position = other.position ∧ there.lastFrame = none := by
  have inside : tape.packetsStart ≤ other.position ∧ other.position ≤ tape.contents.length := by
    rw [← same.packetsStart, ← same.contents]
    exact ⟨within.start, within.stop⟩
  exact ⟨_, if_pos inside, ⟨rfl, rfl, rfl, rfl, rfl⟩, rfl, rfl⟩

namespace Level

theorem later (level : Level frame tape other) {next : UInt32} (after : frame < next) :
    Level next tape other :=
  ⟨level.contents, level.position, fun last read => UInt32.lt_trans (level.earlier last read) after,
    fun last read => UInt32.lt_trans (level.earlierOther last read) after⟩

/-- Two tapes that have both read a batch of this frame stand at the same place again. -/
theorem skip (level : Level frame tape other) {next : UInt32} (after : frame < next)
    (count : Nat) : Level next (tape.skip count frame) (other.skip count frame) := by
  refine ⟨level.contents, congrArg (· + count) level.position, ?_, ?_⟩
  · rintro last ⟨⟩
    exact after
  · rintro last ⟨⟩
    exact after

theorem rest (level : Level frame tape other) : other.rest = tape.rest := by
  rw [other.rest_eq, tape.rest_eq, level.contents, level.position]

theorem opening (level : Level frame tape other) : other.opening = tape.opening :=
  opening_congr level.position level.rest

theorem peek (level : Level frame tape other) : other.peek = tape.peek :=
  peek_congr level.position level.rest

theorem any_le_eq_false {last : Option UInt32} (earlier : ∀ found ∈ last, found < frame) :
    last.any (frame ≤ ·) = false := by
  cases last with
  | none => rfl
  | some found => simpa using earlier found rfl

/-- What is ahead is the same on both tapes if it is for this frame. -/
theorem batchAhead (level : Level frame tape other) {count : UInt16} {used : Nat}
    (opened : tape.opening = .ok (frame, count, used)) : other.batchAhead = tape.batchAhead := by
  rw [batchAhead_of_opening opened, batchAhead_of_opening (level.opening.trans opened),
    any_le_eq_false level.earlier, any_le_eq_false level.earlierOther, level.position, level.rest]
  rfl

/-- Both tapes fail to read the batch of this frame, or both read it and move on by the same
number of bytes. -/
theorem next (level : Level frame tape other) (within : tape.Within)
    (found : tape.peek = .ok (some frame)) :
    (∃ failure, Tape.next tape = .error failure tape ∧
      Tape.next other = .error failure other) ∨
    ∃ batch count, Tape.next tape = .ok (some batch) (tape.skip count frame) ∧
      Tape.next other = .ok (some batch) (other.skip count frame) ∧
      (tape.skip count frame).Within := by
  obtain ⟨unread, count, used, opened⟩ := opening_of_peek found
  have unreadOther : other.isExhausted = false := by
    rw [isExhausted, level.rest]
    exact unread
  cases ahead : tape.batchAhead with
  | error failure =>
      exact .inl ⟨failure, by rw [Tape.next, unread, ahead]; rfl,
        by rw [Tape.next, unreadOther, level.batchAhead opened, ahead]; rfl⟩
  | ok result =>
      obtain ⟨batch, stop⟩ := result
      have current : batch.frame = frame := by
        obtain ⟨⟨count', used', again⟩, -⟩ := opening_of_batchAhead ahead
        exact (Prod.mk.inj (Except.ok.inj (again.symm.trans opened))).1
      have read : Tape.next tape = .ok (some batch) (tape.skip (stop - tape.position) frame) := by
        rw [Tape.next, unread, ahead, ← current]
        rfl
      have readOther : Tape.next other =
          .ok (some batch) (other.skip (stop - tape.position) frame) := by
        rw [Tape.next, unreadOther, level.batchAhead opened, ahead, ← current, ← level.position]
        rfl
      exact .inr ⟨batch, stop - tape.position, read, readOther, within.next read⟩

/-- Both tapes fail alike, or have nothing for this frame, or give the same batch and move
on by the same number of bytes. -/
theorem take (level : Level frame tape other) (within : tape.Within) :
    (∃ failure, Tape.take frame tape = .error failure tape ∧
      Tape.take frame other = .error failure other) ∨
    (Tape.take frame tape = .ok none tape ∧ Tape.take frame other = .ok none other) ∨
    ∃ batch count, Tape.take frame tape = .ok (some batch) (tape.skip count frame) ∧
      Tape.take frame other = .ok (some batch) (other.skip count frame) ∧
      (tape.skip count frame).Within := by
  have same := level.peek
  unfold Tape.take
  cases found : tape.peek with
  | error failure =>
      rw [found] at same
      exact .inl ⟨failure, rfl, by rw [same]⟩
  | ok due =>
      rw [found] at same
      rw [same]
      cases due with
      | none => exact .inr (.inl ⟨rfl, rfl⟩)
      | some first =>
          by_cases due : first = frame
          · subst due
            simp only [if_true]
            rcases level.next within found with failed | read
            · exact .inl failed
            · exact .inr (.inr read)
          · by_cases missed : first < frame
            · simp only [if_neg due, if_pos missed, level.position]
              exact .inl ⟨_, rfl, rfl⟩
            · simp only [if_neg due, if_neg missed]
              exact .inr (.inl ⟨trivial, trivial⟩)

end Level

end MatchTape.Tape
