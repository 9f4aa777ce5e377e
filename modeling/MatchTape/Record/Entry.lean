import MatchTape.Bytes.Text
import MatchTape.Bytes.Word

/-!
# Records as lists of entries

A record is a sequence of entries.  Each has a number that says what it means
and a payload whose form can be told without knowing the number, so that a
reader can pass over entries it has no use for.  Groups, an outdated form, are
passed over as a whole.

Numbers are written in base 128, least significant digit first; every byte but the
last has its high bit set.  A number of 64 bits takes at most ten bytes, and the
tenth can only be zero or one.
-/

namespace MatchTape.Record

namespace Varint

def most : Nat := 10

/-- At most `more` digits that have the high bit set, then the last digit. -/
def digits : Nat → Nat → List UInt8
  | 0, value => [UInt8.ofNat value]
  | more + 1, value =>
      if value < 128 then [UInt8.ofNat value]
      else UInt8.ofNat (value % 128 + 128) :: digits more (value / 128)

def bytes (value : Nat) : List UInt8 :=
  digits (most - 1) value

/-- Read a number of at most `room` bytes; of the last of them only one bit counts. -/
def readWithin : Nat → List UInt8 → Option (Nat × List UInt8)
  | 0, _ => none
  | _, [] => none
  | room + 1, byte :: rest =>
      if byte < 128 then
        if room = 0 ∧ 1 < byte then none else some (byte.toNat, rest)
      else
        (readWithin room rest).map fun (high, rest) => (byte.toNat - 128 + 128 * high, rest)

def read (input : List UInt8) : Option (Nat × List UInt8) :=
  readWithin most input

end Varint

inductive Payload where
  | number (value : UInt64)
  | eight (bytes : List UInt8)
  | block (bytes : List UInt8)
  | group
  | four (bytes : List UInt8)
  deriving DecidableEq, Repr

structure Entry where
  number : Nat
  payload : Payload
  deriving DecidableEq, Repr

namespace Payload

def form : Payload → Nat
  | number _ => 0
  | eight _ => 1
  | block _ => 2
  | group => 3
  | four _ => 5

def bytes : Payload → List UInt8
  | number value => Varint.bytes value.toNat
  | eight bytes => bytes
  | block bytes => Varint.bytes bytes.length ++ bytes
  | group => []
  | four bytes => bytes

end Payload

namespace Entry

/-- The key, which joins number and form, then the payload. -/
def bytes (entry : Entry) : List UInt8 :=
  Varint.bytes (entry.number * 8 + entry.payload.form) ++ entry.payload.bytes

/-- An entry for a number, left out when the number is zero. -/
def ofNumber (number : Nat) (value : UInt64) : List Entry :=
  if value = 0 then [] else [⟨number, .number value⟩]

def ofBlock (number : Nat) (bytes : List UInt8) : List Entry :=
  if bytes.isEmpty then [] else [⟨number, .block bytes⟩]

def ofText (number : Nat) (text : String) : List Entry :=
  ofBlock number (Text.utf8 text)

def takeExactly (count : Nat) (input : List UInt8) : Option (List UInt8 × List UInt8) :=
  let data := input.take count
  if data.length = count then some (data, input.drop count) else none

def readKey (input : List UInt8) : Option (Nat × Nat × List UInt8) := do
  let (key, rest) ← Varint.read input
  if UInt32.size ≤ key ∨ key < 8 then none else some (key / 8, key % 8, rest)

def readPayload (form : Nat) (input : List UInt8) : Option (Payload × List UInt8) := do
  match form with
  | 0 => do
      let (value, rest) ← Varint.read input
      return (.number (UInt64.ofNat value), rest)
  | 1 => do
      let (data, rest) ← takeExactly 8 input
      return (.eight data, rest)
  | 2 => do
      let (length, rest) ← Varint.read input
      let (data, rest) ← takeExactly length rest
      return (.block data, rest)
  | 5 => do
      let (data, rest) ← takeExactly 4 input
      return (.four data, rest)
  | _ => none

/-- Read entries to the end of the bytes.  `opened` lists the groups that have
begun, innermost first; what lies inside of them is dropped.  Groups nest at most
`depth` deep.  Each step reads at least one byte, so as many steps as there are
bytes are enough. -/
def readAll (depth : Nat) : Nat → List Nat → List UInt8 → Option (List Entry)
  | _, opened, [] => if opened.isEmpty then some [] else none
  | 0, _, _ => none
  | steps + 1, opened, input => do
      let (number, form, rest) ← readKey input
      match form with
      | 4 =>
          match opened with
          | innermost :: outer =>
              if number = innermost then readAll depth steps outer rest else none
          | [] => none
      | 3 =>
          if opened.length < depth then
            let entries ← readAll depth steps (number :: opened) rest
            if opened.isEmpty then return ⟨number, .group⟩ :: entries else return entries
          else none
      | form =>
          if opened.length < depth then
            let (payload, rest) ← readPayload form rest
            let entries ← readAll depth steps opened rest
            if opened.isEmpty then return ⟨number, payload⟩ :: entries else return entries
          else none

/-- How deep groups nest in a record of its own. -/
def outerDepth : Nat := 100

/-- How deep groups nest in a record inside of another. -/
def innerDepth : Nat := 99

def list? (depth : Nat) (input : List UInt8) : Option (List Entry) :=
  readAll depth input.length [] input

def text? : Payload → Option String
  | .block bytes => Text.ofUtf8? bytes
  | _ => none

def number? : Payload → Option UInt64
  | .number value => some value
  | _ => none

def block? : Payload → Option (List UInt8)
  | .block bytes => some bytes
  | _ => none

end Entry

end MatchTape.Record
