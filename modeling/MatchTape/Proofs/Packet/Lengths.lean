import MatchTape.Proofs.Packet.Message

/-!
# Lengths that are reckoned ahead

The bytes of a header, of a message and of a body are as many as is reckoned without encoding
them, whatever they hold.
-/

namespace MatchTape.Packet

namespace Encoding

theorem length_counted (list : List UInt16) : (counted list).length = 1 + 2 * list.length := by
  rw [counted, List.length_cons, Reader.Reads.length_units, Nat.add_comm]

theorem length_terminated (text : String) :
    (terminated text).length = (Text.utf8 (Text.beforeNul text)).length + 1 := by
  rw [terminated, List.length_append, List.length_singleton]

end Encoding

namespace Header

theorem tag_field (kind : Kind) (header : Header) (tag : Tag) :
    (header.field kind tag).tag = tag := by
  cases tag <;> rfl

theorem length_fields (kind : Kind) (header : Header) (tags : List Tag) :
    (tags.flatMap fun tag => (header.field kind tag).bytes).length =
      total (tags.map Tag.size) := by
  induction tags with
  | nil => rfl
  | cons tag tags ih =>
      rw [List.flatMap_cons, List.length_append, Field.length_bytes, tag_field, ih]
      rfl

theorem length_bytes (kind : Kind) (header : Header) :
    (header.bytes kind).length = kind.headerSize :=
  header.length_fields kind kind.layout

end Header

namespace Run

theorem length_flatMap_bytes (runs : List Run) :
    (runs.flatMap Run.bytes).length = 2 * runs.length := by
  induction runs with
  | nil => rfl
  | cons run runs ih =>
      rw [List.flatMap_cons, List.length_append, ih, List.length_cons, Nat.mul_succ, Nat.add_comm]
      rfl

end Run

theorem Message.length_bytes (message : Message) : message.bytes.length = message.size := by
  have arguments := Run.length_arguments message.sentArguments_types
  rw [bytes, List.length_append, List.length_append, List.length_cons, Word.length_toBytes,
    Run.length_flatMap_bytes, arguments, size]
  omega

theorem Fragment.length_bytes (fragment : Fragment) :
    fragment.bytes.length = 22 + fragment.data.length := by
  simp only [bytes, List.length_append, Encoding.length_word16, Encoding.length_word32]

/-- The body takes the fixed part of its kind, and the variable part that is reckoned for it. -/
theorem Body.length_bytes (body : Body) :
    body.bytes.length =
      body.kind.fixedBodySize + if body.kind.isVariable then body.variableSize else 0 := by
  cases body with
  | game message => exact message.length_bytes.trans (Nat.zero_add _).symm
  | wrapper fragment => exact fragment.length_bytes
  | disconnectChat text => exact Encoding.length_counted _
  | chat text mask =>
      simp only [bytes, kind, Kind.fixedBodySize, Kind.isVariable, variableSize,
        List.length_append, Encoding.length_counted, Encoding.signed32, Encoding.length_word32,
        if_true]
      omega
  | file name data =>
      simp only [bytes, kind, Kind.fixedBodySize, Kind.isVariable, variableSize,
        List.length_append, Encoding.length_terminated, Encoding.length_word32, if_true]
      omega
  | fileAnnounce name id mask =>
      simp only [bytes, kind, Kind.fixedBodySize, Kind.isVariable, variableSize,
        List.length_append, Encoding.length_terminated, Encoding.length_word16, List.length_cons,
        List.length_nil, if_true]
      omega
  | _ => rfl

/-- The size that is reckoned for a command is that of its packet, whatever the command holds:
chat of any length, names with NUL in them, messages of more runs than are sent, fragments out
of range. -/
theorem Command.size_eq_length (command : Command) : command.size = command.bytes.length := by
  have header := command.header.length_bytes command.kind
  have body := command.body.length_bytes
  calc
    command.size = command.kind.headerSize + (command.kind.fixedBodySize +
        if command.kind.isVariable then command.body.variableSize else 0) := Nat.add_assoc _ _ _
    _ = (command.header.bytes command.kind).length + command.body.bytes.length :=
        congrArg₂ (· + ·) header.symm body.symm
    _ = command.bytes.length := List.length_append.symm

end MatchTape.Packet
