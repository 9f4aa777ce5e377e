import MatchTape.Proofs.Packet.Respelling

/-!
# Which messages can be sent

A message can be sent exactly if some bytes are read as it.  What is sent of a longer one is
another message, and no other table of runs could help: the runs that are gathered are the
fewest that stand for the arguments' types.
-/

namespace MatchTape.Packet

namespace Run

/-- A table of runs that can be declared, for arguments of the given types. -/
structure Declares (runs : List Run) (types : List ArgumentType) : Prop where
  small : ∀ run ∈ runs, run.count ≤ 255
  stands : runs.flatMap Run.types = types

theorem declares_gather (types : List ArgumentType) : Declares (gather types) types :=
  ⟨gather_count_le types, gather_types types⟩

theorem Declares.length_gather_le {runs : List Run} {types : List ArgumentType}
    (declared : Declares runs types) : (gather types).length ≤ runs.length := by
  rw [← declared.stands]
  exact Run.length_gather_le declared.small

end Run

namespace Message

/-- Bytes are read as a message exactly if 255 runs are enough for it. -/
theorem isEncodable_iff_read {message : Message} :
    message.isEncodable = true ↔
      ∃ input position after, read ⟨input, position⟩ = .ok message after := by
  constructor
  · intro encodable
    have found := message.read_bytes [] 0
    rw [sent_of_isEncodable encodable] at found
    exact ⟨_, _, _, found⟩
  · rintro ⟨input, position, after, found⟩
    obtain ⟨front, rest, -, -, encodable, -⟩ := spells_read input position message after found
    exact encodable

theorem sent_eq_self_iff {message : Message} :
    message.sent = message ↔ message.isEncodable = true := by
  constructor
  · intro whole
    have found := message.read_bytes [] 0
    rw [whole] at found
    exact isEncodable_iff_read.mpr ⟨_, _, _, found⟩
  · exact sent_of_isEncodable

end Message

namespace Command

theorem isEncodable_of_decode {packet : List UInt8} {command : Command} {used : Nat}
    {message : Message} (decoded : decode packet = .ok (command, used))
    (game : command.body = .game message) : message.isEncodable = true := by
  obtain ⟨after, found, -⟩ := decode_eq_ok_iff.mp decoded
  obtain ⟨front, rest, -, -, same, -⟩ := spells_read _ _ _ _ found
  have body : command.body.sent = command.body := congrArg Command.body same
  rw [game] at body
  exact Message.sent_eq_self_iff.mp (Body.game.inj body)

/-- Behind any header the bytes of a message that can be sent are decoded to it. -/
theorem decode_game {message : Message} (encodable : message.isEncodable = true)
    (header : Header) :
    decode (header.bytes .game ++ message.bytes) =
      .ok (⟨header.normalized .game, .game message⟩,
        (header.bytes .game ++ message.bytes).length) := by
  have reads : read.Reads (Command.bytes ⟨header, .game message⟩)
      (Command.sent ⟨header, .game message⟩) := read_bytes trivial trivial
  have decoded := decode_of_reads reads []
  have body : Body.sent (.game message) = .game message :=
    congrArg Body.game (Message.sent_of_isEncodable encodable)
  rwa [List.append_nil, Command.sent, body] at decoded

end Command

namespace Message

/-- A message can be sent exactly if some packet is decoded to it, which then may have any header
in front.  Its runs declare the types of its arguments, and no table that does is shorter. -/
theorem isEncodable_exact (message : Message) :
    (message.isEncodable = true ↔
      ∃ packet command used, Command.decode packet = .ok (command, used) ∧
        command.body = .game message) ∧
    (∀ header : Header, message.isEncodable = true ↔
      ∃ tail, Command.decode (header.bytes .game ++ tail) =
        .ok (⟨header.normalized .game, .game message⟩, (header.bytes .game ++ tail).length)) ∧
    (message.sent = message ↔ message.isEncodable = true) ∧
    Run.Declares message.runs (message.arguments.map Argument.type) ∧
    ∀ runs, Run.Declares runs (message.arguments.map Argument.type) →
      message.runs.length ≤ runs.length := by
  refine ⟨⟨fun encodable => ?_, ?_⟩, fun header => ⟨fun encodable => ?_, ?_⟩, sent_eq_self_iff,
    Run.declares_gather _, fun runs declared => declared.length_gather_le⟩
  · exact ⟨_, _, _, Command.decode_game encodable {}, rfl⟩
  · rintro ⟨packet, command, used, decoded, game⟩
    exact Command.isEncodable_of_decode decoded game
  · exact ⟨message.bytes, Command.decode_game encodable header⟩
  · rintro ⟨tail, decoded⟩
    exact Command.isEncodable_of_decode decoded rfl

end Message

end MatchTape.Packet
