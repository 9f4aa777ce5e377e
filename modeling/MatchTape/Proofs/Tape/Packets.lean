import MatchTape.Proofs.Packet.RoundTrip
import MatchTape.Proofs.Tape.Packing

/-!
# Batches among the packets of a tape

The packets of a batch are read back as the batch that arrives, in which every command
has become the command that arrives.  So batches with ascending frames are read from a tape
whose unread bytes begin with their packets.  A batch with a command out of range is not.
-/

namespace MatchTape

open Packet

/-! ## Single packets -/

namespace Packet.Command

theorem kind_sent (command : Command) : command.sent.kind = command.kind := by
  obtain ⟨header, body⟩ := command
  cases body <;> rfl

theorem bytes_ne_nil (command : Command) : command.bytes ≠ [] := by
  obtain ⟨fields, front⟩ := Header.kind_front command.kind command.header
  rw [Command.bytes, front]
  exact List.cons_ne_nil _ _

/-- A message that its runs cover reports the same checksum on arrival. -/
theorem checksum?_sent {command : Command}
    (encodable : ∀ message ∈ command.message?, message.isEncodable = true) :
    command.sent.checksum? = command.checksum? := by
  obtain ⟨header, body⟩ := command
  cases body with
  | game message =>
      change message.sent.checksum? = message.checksum?
      rw [Message.sent_of_isEncodable (encodable message rfl)]
  | _ => rfl

end Packet.Command

namespace Tape

open Command (IsPacket ArePackets)

theorem isPacket_bytes {command : Command} (fits : command.body.Fits)
    (inRange : command.body.InRange) : command.sent.IsPacket command.bytes :=
  ⟨command.bytes_ne_nil, Command.decode_of_reads (Command.read_bytes fits inRange)⟩

theorem arePackets_bytes {commands : List Command}
    (fits : ∀ command ∈ commands, command.body.Fits)
    (inRange : ∀ command ∈ commands, command.body.InRange) :
    ArePackets (commands.map Command.sent) (commands.flatMap Command.bytes) := by
  induction commands with
  | nil => exact .nothing
  | cons command commands ih =>
      obtain ⟨fitsFirst, fitsOthers⟩ := List.forall_mem_cons.mp fits
      obtain ⟨inRangeFirst, inRangeOthers⟩ := List.forall_mem_cons.mp inRange
      exact .packet (isPacket_bytes fitsFirst inRangeFirst) (ih fitsOthers inRangeOthers)

theorem packetAt_outside {command : Command} (fits : command.body.Fits)
    (outside : ¬ command.body.InRange) (offset : Nat) (rest : List UInt8) :
    ∃ skipped cause, packetAt offset (command.bytes ++ rest) =
      .error (.badPacket offset (.violation skipped cause)) := by
  obtain ⟨header, body⟩ := command
  cases body with
  | wrapper fragment =>
      cases found : fragment.violation? with
      | none => exact absurd ((Fragment.violation?_eq_none_iff fits).mp found) outside
      | some cause =>
          have refused : Command.decode (Command.bytes ⟨header, .wrapper fragment⟩ ++ rest) =
              .error (.violation ((header.bytes .wrapper).length + 22) cause) :=
            Command.decode_of_refuses (Command.read_refuses fits found) rest
          exact ⟨_, cause, by rw [packetAt, refused]⟩
  | _ => exact absurd trivial outside

/-- A command belongs to the same batches on arrival. -/
theorem strays_sent (frame : UInt32) (command : Command) :
    strays frame command.sent = strays frame command := by
  unfold strays
  rw [Command.kind_sent]
  cases carried : command.kind.carries .frame with
  | false => rfl
  | true =>
      change (true && (Header.normalized command.kind command.header).frame != frame) = _
      rw [Header.normalized, if_pos carried]

/-! ## Batches -/

def Batch.sent (batch : Batch) : Batch :=
  { batch with commands := batch.commands.map Command.sent }

/-- The batch keeps the rules of the format: it has commands, not too many, that belong
to its frame and whose packets can be read back. -/
structure Batch.Sound (batch : Batch) : Prop where
  filled : batch.commands ≠ []
  few : batch.commands.length < 2 ^ 16
  kept : ∀ command ∈ batch.commands, strays batch.frame command = false
  fits : ∀ command ∈ batch.commands, command.body.Fits
  inRange : ∀ command ∈ batch.commands, command.body.InRange

theorem isEmpty_bytes_append (command : Command) (rest : List UInt8) :
    (command.bytes ++ rest).isEmpty = false :=
  List.isEmpty_eq_false_iff.mpr (List.append_ne_nil_of_left_ne_nil command.bytes_ne_nil rest)

/-- Reading the packets of commands fails at the first that is out of range. -/
theorem readCommands_outside {frame : UInt32} {commands : List Command}
    (kept : ∀ command ∈ commands, strays frame command = false)
    (fits : ∀ command ∈ commands, command.body.Fits)
    (outside : ¬ ∀ command ∈ commands, command.body.InRange)
    (offset : Nat) (rest : List UInt8) (found : Array Command) :
    ∃ place skipped cause,
      readCommands frame commands.length offset (commands.flatMap Command.bytes ++ rest) found =
        .error (.badPacket place (.violation skipped cause)) := by
  induction commands generalizing offset found with
  | nil => exact absurd (fun _ member => absurd member List.not_mem_nil) outside
  | cons command commands ih =>
      obtain ⟨keptFirst, keptOthers⟩ := List.forall_mem_cons.mp kept
      obtain ⟨fitsFirst, fitsOthers⟩ := List.forall_mem_cons.mp fits
      rw [List.length_cons, List.flatMap_cons, List.append_assoc]
      by_cases inRange : command.body.InRange
      · have belongs : strays frame command.sent = false := by rw [strays_sent, keptFirst]
        rw [readCommands_succ (isPacket_bytes fitsFirst inRange) belongs]
        exact ih keptOthers fitsOthers
          (fun others => outside (List.forall_mem_cons.mpr ⟨inRange, others⟩)) _ _
      · obtain ⟨skipped, cause, bad⟩ := packetAt_outside fitsFirst inRange offset
          (commands.flatMap Command.bytes ++ rest)
        refine ⟨offset, skipped, cause, ?_⟩
        rw [readCommands, isEmpty_bytes_append, bad]
        rfl

variable {tape : Tape} {batch : Batch} {batches : List Batch} {rest : List UInt8}

theorem isOpening_bytes (batch : Batch) :
    IsOpening batch.frame (.ofNat batch.commands.length) batch.opening.bytes := by
  have fits : batch.opening.body.Fits := trivial
  have inRange : batch.opening.body.InRange := trivial
  exact ⟨_, rfl, isPacket_bytes fits inRange⟩

theorem Batch.Sound.packed (sound : batch.Sound) :
    batch.sent.Packed batch.opening.bytes (batch.commands.flatMap Command.bytes) := by
  have same : batch.sent.commands.length = batch.commands.length := List.length_map _
  refine ⟨same ▸ isOpening_bytes batch, same ▸ sound.few,
    arePackets_bytes sound.fits sound.inRange, fun command member => ?_⟩
  obtain ⟨source, listed, rfl⟩ := List.mem_map.mp member
  exact (strays_sent _ _).trans (sound.kept source listed)

/-- A sound batch is the next one on a tape that goes on with its packets. -/
theorem next_of_rest (sound : batch.Sound) (unread : tape.rest = batch.bytes ++ rest)
    (later : ∀ last ∈ tape.lastFrame, last < batch.frame) :
    next tape = .ok (some batch.sent) (tape.skip batch.bytes.length batch.frame) := by
  rw [Batch.bytes, List.append_assoc] at unread
  rw [Batch.bytes, List.length_append]
  exact sound.packed.next unread later

theorem next_of_rest_outside (few : batch.commands.length < 2 ^ 16)
    (kept : ∀ command ∈ batch.commands, strays batch.frame command = false)
    (fits : ∀ command ∈ batch.commands, command.body.Fits)
    (outside : ¬ ∀ command ∈ batch.commands, command.body.InRange)
    (unread : tape.rest = batch.bytes ++ rest)
    (later : ∀ last ∈ tape.lastFrame, last < batch.frame) :
    ∃ place skipped cause,
      next tape = .error (.badPacket place (.violation skipped cause)) tape := by
  have count : (UInt16.ofNat batch.commands.length).toNat = batch.commands.length :=
    UInt16.toNat_ofNat_of_lt' few
  obtain ⟨place, skipped, cause, failed⟩ := readCommands_outside kept fits outside
    (tape.position + batch.opening.bytes.length) rest #[]
  refine ⟨place, skipped, cause, ?_⟩
  rw [Batch.bytes, List.append_assoc] at unread
  rw [next, isExhausted_of_isOpening (isOpening_bytes batch) unread,
    batchAhead_of_isOpening (isOpening_bytes batch) unread later, count, failed]
  rfl

/-- Sound batches whose frames ascend and are later than what was read before are read from
the front of a tape, which remembers no other frame than theirs. -/
theorem yields_of_rest (sound : ∀ batch ∈ batches, batch.Sound)
    (ascending : batches.Pairwise fun first second => first.frame < second.frame)
    (later : ∀ last ∈ tape.lastFrame, ∀ batch ∈ batches, last < batch.frame)
    (unread : tape.rest = batches.flatMap Batch.bytes ++ rest) :
    ∃ after, Yields tape (batches.map Batch.sent) after ∧ after.rest = rest ∧
      ∀ last ∈ after.lastFrame, last ∈ tape.lastFrame ∨ ∃ batch ∈ batches, batch.frame = last := by
  induction batches generalizing tape with
  | nil => exact ⟨tape, .nothing tape, unread, fun _ known => .inl known⟩
  | cons batch batches ih =>
      rw [List.flatMap_cons, List.append_assoc] at unread
      have read := next_of_rest (sound batch List.mem_cons_self) unread
        fun last known => later last known batch List.mem_cons_self
      obtain ⟨before, ascending⟩ := List.pairwise_cons.mp ascending
      have left : (tape.skip batch.bytes.length batch.frame).rest =
          batches.flatMap Batch.bytes ++ rest := by
        change tape.rest.drop batch.bytes.length = _
        rw [unread, List.drop_left]
      have laterOthers : ∀ last ∈ (tape.skip batch.bytes.length batch.frame).lastFrame,
          ∀ other ∈ batches, last < other.frame := by
        rintro last ⟨⟩ other member
        exact before other member
      obtain ⟨after, yields, unread, frames⟩ := ih
        (fun other member => sound other (List.mem_cons_of_mem _ member)) ascending laterOthers left
      refine ⟨after, .batch read yields, unread, fun last known => .inr ?_⟩
      rcases frames last known with same | ⟨other, member, same⟩
      · exact ⟨batch, List.mem_cons_self, Option.some.inj same⟩
      · exact ⟨other, List.mem_cons_of_mem _ member, same⟩

theorem next_of_rest_eq_nil (unread : tape.rest = []) :
    next tape = .ok none tape ∧ tape.isExhausted = true := by
  have exhausted : tape.isExhausted = true := by rw [isExhausted, unread, List.isEmpty_nil]
  exact ⟨by rw [next, if_pos exhausted], exhausted⟩

end Tape

end MatchTape
