import MatchTape.Proofs.Attempts
import MatchTape.Proofs.Packet.Delimited
import MatchTape.Proofs.Tape.Reading

/-!
# The bytes that a batch takes up

A batch is read if and only if the tape goes on with bytes that are packets of its opening and of
its commands, whatever stands behind them.  So batches that were read from one tape are read from
every other tape that goes on with the same bytes.
-/

namespace MatchTape

open Packet

namespace Packet.Command

/-- The bytes are a packet of the command, whatever follows them. -/
structure IsPacket (command : Command) (front : List UInt8) : Prop where
  filled : front ≠ []
  found : ∀ rest, decode (front ++ rest) = .ok (command, front.length)

inductive ArePackets : List Command → List UInt8 → Prop where
  | nothing : ArePackets [] []
  | packet {command : Command} {commands : List Command} {front rest : List UInt8}
      (first : command.IsPacket front) (others : ArePackets commands rest) :
      ArePackets (command :: commands) (front ++ rest)

theorem isPacket_of_decode {bytes : List UInt8} {command : Command} {used : Nat}
    (decoded : decode bytes = .ok (command, used)) :
    ∃ front rest, bytes = front ++ rest ∧ used = front.length ∧ command.IsPacket front := by
  obtain ⟨front, rest, split, size, least, found⟩ := decode_front decoded
  refine ⟨front, rest, split, size, ?_, found⟩
  rintro rfl
  exact absurd least (by decide)

theorem IsPacket.isEmpty_append {command : Command} {front : List UInt8}
    (packet : command.IsPacket front) (rest : List UInt8) : (front ++ rest).isEmpty = false :=
  List.isEmpty_eq_false_iff.mpr (List.append_ne_nil_of_left_ne_nil packet.filled rest)

theorem ArePackets.split {first second : List Command} {bytes : List UInt8}
    (packets : ArePackets (first ++ second) bytes) :
    ∃ front back, bytes = front ++ back ∧ ArePackets first front ∧ ArePackets second back := by
  induction first generalizing bytes with
  | nil => exact ⟨[], bytes, rfl, .nothing, packets⟩
  | cons command first ih =>
      cases packets with
      | packet found others =>
          obtain ⟨front, back, rfl, before, behind⟩ := ih others
          exact ⟨_, back, (List.append_assoc _ _ _).symm, .packet found before, behind⟩

end Packet.Command

namespace Tape

open Command (IsPacket ArePackets)

variable {tape other after : Tape} {batch : Batch} {batches : List Batch} {frame : UInt32}
  {count : UInt16} {front packets rest : List UInt8} {commands : List Command}

/-! ## Single packets -/

theorem packetAt_of_isPacket {command : Command} (packet : command.IsPacket front) (offset : Nat)
    (rest : List UInt8) : packetAt offset (front ++ rest) = .ok (command, front.length) := by
  rw [packetAt, packet.found]

theorem isPacket_of_packetAt {offset used : Nat} {bytes : List UInt8} {command : Command}
    (found : packetAt offset bytes = .ok (command, used)) :
    ∃ front rest, bytes = front ++ rest ∧ used = front.length ∧ command.IsPacket front := by
  unfold packetAt at found
  split at found
  · next decoded =>
      cases found
      exact Command.isPacket_of_decode decoded
  · cases found

/-! ## Openings -/

/-- The bytes open a batch of the frame and say how many commands follow. -/
def IsOpening (frame : UInt32) (count : UInt16) (front : List UInt8) : Prop :=
  ∃ header : Header, header.frame = frame ∧ IsPacket ⟨header, .frameInfo count⟩ front

theorem opening_of_isOpening (opens : IsOpening frame count front)
    (unread : tape.rest = front ++ rest) : tape.opening = .ok (frame, count, front.length) := by
  obtain ⟨header, rfl, packet⟩ := opens
  rw [opening, unread, packetAt_of_isPacket packet]

theorem isOpening_of_opening {used : Nat} (opened : tape.opening = .ok (frame, count, used)) :
    ∃ front rest, tape.rest = front ++ rest ∧ used = front.length ∧
      IsOpening frame count front := by
  unfold opening at opened
  split at opened
  · cases opened
  · next command length found =>
      split at opened
      · next declared body =>
          cases opened
          obtain ⟨front, rest, split, size, packet⟩ := isPacket_of_packetAt found
          obtain ⟨header, _⟩ := command
          cases body
          exact ⟨front, rest, split, size, header, rfl, packet⟩
      · cases opened

theorem isExhausted_of_isOpening (opens : IsOpening frame count front)
    (unread : tape.rest = front ++ rest) : tape.isExhausted = false := by
  obtain ⟨header, -, packet⟩ := opens
  rw [isExhausted, unread, packet.isEmpty_append]

/-- Behind an opening, it is up to the commands whether there is a batch. -/
theorem batchAhead_of_isOpening (opens : IsOpening frame count front)
    (unread : tape.rest = front ++ rest) (later : ∀ last ∈ tape.lastFrame, last < frame) :
    tape.batchAhead =
      (readCommands frame count.toNat (tape.position + front.length) rest #[]).map
        fun read => (⟨frame, read.1.toList⟩, read.2) := by
  have ascends : ¬ tape.lastFrame.any (frame ≤ ·) = true := by
    cases known : tape.lastFrame with
    | none => exact Bool.false_ne_true
    | some last => simpa using later last known
  rw [batchAhead_of_opening (opening_of_isOpening opens unread), if_neg ascends, unread,
    List.drop_left]
  cases readCommands frame count.toNat (tape.position + front.length) rest #[] <;> rfl

/-! ## Commands -/

theorem readCommands_succ {command : Command} (packet : command.IsPacket front)
    (belongs : strays frame command = false) (left offset : Nat) (rest : List UInt8)
    (found : Array Command) :
    readCommands frame (left + 1) offset (front ++ rest) found =
      readCommands frame left (offset + front.length) rest (found.push command) := by
  rw [readCommands, packet.isEmpty_append, packetAt_of_isPacket packet]
  simp only [Bool.false_eq_true, if_false, belongs, List.drop_left]

/-- Commands that belong to the frame are read from their packets, and more behind them. -/
theorem readCommands_packets (all : ArePackets commands packets)
    (kept : ∀ command ∈ commands, strays frame command = false) (more offset : Nat)
    (rest : List UInt8) (found : Array Command) :
    readCommands frame (commands.length + more) offset (packets ++ rest) found =
      readCommands frame more (offset + packets.length) rest (found ++ commands) := by
  induction all generalizing offset found with
  | nothing => simp only [List.length_nil, Nat.zero_add, List.nil_append, Array.appendList_nil]; rfl
  | packet first others ih =>
      obtain ⟨belongs, keptOthers⟩ := List.forall_mem_cons.mp kept
      rw [List.length_cons, Nat.succ_add, List.append_assoc, readCommands_succ first belongs,
        ih keptOthers, Array.appendList_cons, List.length_append, Nat.add_assoc]

/-- Commands that were read stood there as packets, and belong to the frame. -/
theorem packets_of_readCommands {left offset stop : Nat} {bytes : List UInt8}
    {found read : Array Command}
    (done : readCommands frame left offset bytes found = .ok (read, stop)) :
    ∃ commands packets rest, bytes = packets ++ rest ∧ ArePackets commands packets ∧
      (∀ command ∈ commands, strays frame command = false) ∧ commands.length = left ∧
      read = found ++ commands ∧ stop = offset + packets.length := by
  induction left generalizing offset bytes found with
  | zero =>
      cases done
      exact ⟨[], [], bytes, rfl, .nothing, nofun, rfl, Array.appendList_nil.symm, rfl⟩
  | succ left ih =>
      unfold readCommands at done
      split at done
      · cases done
      · split at done
        · cases done
        · next command used packet =>
            obtain ⟨front, behind, rfl, rfl, first⟩ := isPacket_of_packetAt packet
            split at done
            · cases done
            · next belongs =>
                rw [List.drop_left] at done
                obtain ⟨commands, packets, rest, rfl, others, kept, size, rfl, rfl⟩ := ih done
                refine ⟨command :: commands, front ++ packets, rest,
                  (List.append_assoc _ _ _).symm, .packet first others, ?_, ?_, ?_, ?_⟩
                · exact List.forall_mem_cons.mpr ⟨by simpa using belongs, kept⟩
                · rw [List.length_cons, size]
                · rw [Array.appendList_cons]
                · rw [List.length_append, Nat.add_assoc]

/-! ## Batches -/

/-- The bytes are packets of a batch: an opening that counts its commands, and the commands, which
belong to its frame. -/
structure Batch.Packed (batch : Batch) (front packets : List UInt8) : Prop where
  opens : IsOpening batch.frame (.ofNat batch.commands.length) front
  few : batch.commands.length < 2 ^ 16
  commands : ArePackets batch.commands packets
  kept : ∀ command ∈ batch.commands, strays batch.frame command = false

theorem Batch.Packed.toNat_count (packed : batch.Packed front packets) :
    (UInt16.ofNat batch.commands.length).toNat = batch.commands.length :=
  UInt16.toNat_ofNat_of_lt' packed.few

/-- A batch is read from its packets. -/
theorem Batch.Packed.next (packed : batch.Packed front packets)
    (unread : tape.rest = front ++ (packets ++ rest))
    (later : ∀ last ∈ tape.lastFrame, last < batch.frame) :
    Tape.next tape =
      .ok (some batch) (tape.skip (front.length + packets.length) batch.frame) := by
  have read := readCommands_packets packed.commands packed.kept 0
    (tape.position + front.length) rest #[]
  rw [Nat.add_zero] at read
  have ahead : tape.batchAhead =
      .ok (batch, tape.position + (front.length + packets.length)) := by
    rw [batchAhead_of_isOpening packed.opens unread later, packed.toNat_count, read, readCommands]
    simp only [Except.map, Array.toList_appendList, List.nil_append, Nat.add_assoc]
  rw [Tape.next, isExhausted_of_isOpening packed.opens unread, ahead]
  simp only [Bool.false_eq_true, if_false, Nat.add_sub_cancel_left]

/-- A batch that was read stood there as its packets. -/
theorem packed_of_next (read : next tape = .ok (some batch) after) :
    ∃ front packets, batch.Packed front packets ∧
      tape.rest = front ++ (packets ++ after.rest) ∧
      (∀ last ∈ tape.lastFrame, last < batch.frame) ∧
      after = tape.skip (front.length + packets.length) batch.frame := by
  obtain ⟨stop, -, ahead, rfl⟩ := batchAhead_of_next read
  obtain ⟨⟨count, used, opened⟩, later⟩ := opening_of_batchAhead ahead
  obtain ⟨front, behind, unread, -, opens⟩ := isOpening_of_opening opened
  rw [batchAhead_of_isOpening opens unread later] at ahead
  cases done : readCommands batch.frame count.toNat (tape.position + front.length) behind #[] with
  | error failure =>
      rw [done] at ahead
      cases ahead
  | ok result =>
      obtain ⟨found, stopped⟩ := result
      obtain ⟨commands, packets, rest, rfl, all, kept, size, rfl, rfl⟩ :=
        packets_of_readCommands done
      rw [done] at ahead
      obtain ⟨same, rfl⟩ := Prod.mk.inj (Except.ok.inj ahead)
      have listed : batch.commands = commands := by
        rw [← same, Array.toList_appendList]
        rfl
      have counted : UInt16.ofNat batch.commands.length = count := by
        rw [listed, size, UInt16.ofNat_toNat]
      have few : batch.commands.length < 2 ^ 16 := by
        rw [listed, size]
        exact count.toNat_lt
      have moved : tape.position + front.length + packets.length - tape.position =
          front.length + packets.length := by
        rw [Nat.add_assoc, Nat.add_sub_cancel_left]
      refine ⟨front, packets, ⟨counted ▸ opens, few, listed ▸ all, listed ▸ kept⟩, ?_, later, ?_⟩
      · have left : (tape.skip (front.length + packets.length) batch.frame).rest = rest := by
          change tape.rest.drop _ = rest
          rw [unread, ← List.append_assoc, ← List.length_append, List.drop_left]
        rw [moved, left, unread]
      · rw [moved]

/-! ## Batch after batch -/

/-- The batches that are read from a tape are read from every tape that goes on with the same
bytes. -/
theorem Yields.again (yields : Yields tape batches after) :
    ∃ front, tape.rest = front ++ after.rest ∧ after.position = tape.position + front.length ∧
      ∀ other rest, other.rest = front ++ rest → other.lastFrame = tape.lastFrame →
        ∃ stopped, Yields other batches stopped ∧ stopped.rest = rest ∧
          stopped.lastFrame = after.lastFrame ∧
          stopped.position = other.position + front.length := by
  induction yields with
  | nothing tape =>
      exact ⟨[], rfl, rfl, fun other rest unread same => ⟨other, .nothing other, unread, same, rfl⟩⟩
  | @batch tape middle after batch batches read others ih =>
      obtain ⟨front, packets, packed, unread, later, moved⟩ := packed_of_next read
      obtain ⟨behind, left, position, again⟩ := ih
      have place : middle.position = tape.position + (front.length + packets.length) := by
        rw [moved]
        rfl
      refine ⟨front ++ (packets ++ behind), ?_, ?_, fun other rest unreadOther same => ?_⟩
      · rw [unread, left, List.append_assoc, List.append_assoc]
      · rw [position, place]
        simp only [List.length_append, Nat.add_assoc]
      · rw [List.append_assoc, List.append_assoc] at unreadOther
        have readOther := packed.next unreadOther (same ▸ later)
        have leftOther : (other.skip (front.length + packets.length) batch.frame).rest =
            behind ++ rest := by
          change other.rest.drop _ = _
          rw [unreadOther, ← List.append_assoc, ← List.length_append, List.drop_left]
        obtain ⟨stopped, yields, ends, last, stop⟩ := again _ rest leftOther (moved ▸ rfl)
        refine ⟨stopped, .batch readOther yields, ends, last, ?_⟩
        rw [stop]
        change other.position + (front.length + packets.length) + behind.length = _
        simp only [List.length_append, Nat.add_assoc]

theorem Yields.append {middle : Tape} {others : List Batch} (first : Yields tape batches middle)
    (second : Yields middle others after) : Yields tape (batches ++ others) after := by
  induction first with
  | nothing tape => exact second
  | batch read _ ih => exact .batch read (ih second)

/-- The batches in front of others on a tape are read in front of them. -/
theorem ReadsBack.yields_append {others : List Batch}
    (reads : ReadsBack tape (batches ++ others)) :
    ∃ after, Yields tape batches after ∧ ReadsBack after others := by
  induction batches generalizing tape with
  | nil => exact ⟨tape, .nothing tape, reads⟩
  | cons batch batches ih =>
      cases reads with
      | batch read reads =>
          obtain ⟨after, yields, behind⟩ := ih reads
          exact ⟨after, .batch read yields, behind⟩

/-- A tape that can be read to its end is there, or goes on with the opening of a later batch. -/
theorem ReadsBack.opens (reads : ReadsBack tape batches) :
    tape.rest = [] ∨ ∃ frame count front rest, tape.rest = front ++ rest ∧
      IsOpening frame count front ∧ ∀ last ∈ tape.lastFrame, last < frame := by
  cases reads with
  | ended read =>
      have exhausted := (isExhausted_of_next read).1
      rw [isExhausted, List.isEmpty_iff] at exhausted
      exact .inl exhausted
  | batch read _ =>
      obtain ⟨front, packets, packed, unread, later, -⟩ := packed_of_next read
      exact .inr ⟨_, _, front, _, unread, packed.opens, later⟩

/-! ## Asking again and again -/

/-- What is answered when the next batch is asked for so many times. -/
def readings (calls : Nat) (tape : Tape) : List (Except Failure (Option Batch)) :=
  Attempts.outcomes (fun _ : Unit => next) (List.replicate calls ()) tape

theorem Yields.readings (yields : Yields tape batches after) (calls : Nat) :
    tape.readings (batches.length + calls) =
      batches.map (fun batch => .ok (some batch)) ++ after.readings calls := by
  induction yields with
  | nothing tape => rw [List.length_nil, Nat.zero_add, List.map_nil, List.nil_append]
  | @batch tape middle after batch batches read others ih =>
      have answer : Attempts.outcome next tape = .ok (some batch) := by rw [Attempts.outcome, read]
      have moved : Attempts.left next tape = middle := by rw [Attempts.left, read]
      rw [List.length_cons, Nat.succ_add, Tape.readings, List.replicate_succ, Attempts.outcomes,
        answer, moved, List.map_cons, List.cons_append]
      exact congrArg _ ih

/-- A failure leaves the tape where it was, so that it is met again. -/
theorem readings_of_error {failure : Failure} (failed : next tape = .error failure tape)
    (calls : Nat) : tape.readings calls = List.replicate calls (.error failure) := by
  have answer : Attempts.outcome next tape = .error failure := by rw [Attempts.outcome, failed]
  have still : Attempts.left next tape = tape := by rw [Attempts.left, failed]
  rw [readings, Attempts.outcomes_replicate still, answer]

theorem readings_of_none (ended : next tape = .ok none tape) (calls : Nat) :
    tape.readings calls = List.replicate calls (.ok none) := by
  have answer : Attempts.outcome next tape = .ok none := by rw [Attempts.outcome, ended]
  have still : Attempts.left next tape = tape := by rw [Attempts.left, ended]
  rw [readings, Attempts.outcomes_replicate still, answer]

theorem readings_front (calls more : Nat) (tape : Tape) :
    tape.readings calls <+: tape.readings (calls + more) := by
  rw [readings, readings, ← List.replicate_append_replicate, Attempts.outcomes_append]
  exact List.prefix_append _ _

end Tape

end MatchTape
