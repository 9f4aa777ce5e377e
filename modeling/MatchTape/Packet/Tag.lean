import MatchTape.Bytes.Word

/-!
# Tagged fields

A packet opens with fields that each carry one tag byte and a value whose width
the tag alone decides.
-/

namespace MatchTape.Packet

def total : List Nat → Nat
  | [] => 0
  | part :: parts => part + total parts

inductive Tag where
  | kind
  | relay
  | player
  | serial
  | frame
  | data
  deriving DecidableEq, Repr

namespace Tag

def all : List Tag :=
  [kind, relay, player, serial, frame, data]

def letter : Tag → Char
  | kind => 'T'
  | relay => 'R'
  | player => 'P'
  | serial => 'C'
  | frame => 'F'
  | data => 'D'

def byte (tag : Tag) : UInt8 :=
  UInt8.ofNat tag.letter.toNat

def width : Tag → Nat
  | kind | relay | player => 1
  | serial => 2
  | frame => 4
  | data => 0

def size (tag : Tag) : Nat :=
  1 + tag.width

def ofByte? (byte : UInt8) : Option Tag :=
  all.find? (·.byte == byte)

def name : Tag → String
  | kind => "CommandType"
  | relay => "Relay"
  | player => "PlayerId"
  | serial => "CommandId"
  | frame => "Frame"
  | data => "Data"

def quoted (tag : Tag) : String :=
  "'" ++ tag.letter.toString ++ "'"

@[simp] theorem ofByte?_byte (tag : Tag) : ofByte? tag.byte = some tag := by
  cases tag <;> decide

theorem byte_of_ofByte? {byte : UInt8} {tag : Tag} (found : ofByte? byte = some tag) :
    tag.byte = byte := by
  have := List.find?_some found
  simpa using this

theorem byte_injective {left right : Tag} (same : left.byte = right.byte) : left = right := by
  have := ofByte?_byte left
  rw [same, ofByte?_byte] at this
  exact (Option.some.inj this).symm

end Tag

/-- A tag together with its value. -/
inductive Field where
  | kind (byte : UInt8)
  | relay (mask : UInt8)
  | player (slot : UInt8)
  | serial (number : UInt16)
  | frame (number : UInt32)
  | data
  deriving DecidableEq, Repr

namespace Field

def tag : Field → Tag
  | kind _ => .kind
  | relay _ => .relay
  | player _ => .player
  | serial _ => .serial
  | frame _ => .frame
  | data => .data

/-- The value of a field as a number; the data marker has none and counts as zero. -/
def value : Field → Nat
  | kind byte => byte.toNat
  | relay mask => mask.toNat
  | player slot => slot.toNat
  | serial number => number.toNat
  | frame number => number.toNat
  | data => 0

def ofValue : Tag → Nat → Field
  | .kind, value => kind (UInt8.ofNat value)
  | .relay, value => relay (UInt8.ofNat value)
  | .player, value => player (UInt8.ofNat value)
  | .serial, value => serial (UInt16.ofNat value)
  | .frame, value => frame (UInt32.ofNat value)
  | .data, _ => data

def bytes (field : Field) : List UInt8 :=
  field.tag.byte :: Word.toBytes field.tag.width field.value

@[simp] theorem tag_ofValue (tag : Tag) (value : Nat) : (ofValue tag value).tag = tag := by
  cases tag <;> rfl

@[simp] theorem ofValue_value (field : Field) : ofValue field.tag field.value = field := by
  cases field <;> simp [ofValue, tag, value]

@[simp] theorem length_bytes (field : Field) : field.bytes.length = field.tag.size := by
  simp [bytes, Tag.size, Nat.add_comm]

end Field

end MatchTape.Packet
