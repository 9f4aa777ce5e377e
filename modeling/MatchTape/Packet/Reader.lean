import MatchTape.Bytes.Binary32
import MatchTape.Bytes.Text
import MatchTape.Packet.Fault

/-!
# Reading a packet from left to right

A cursor is the unread part of a packet together with the number of bytes
before it.  A reader takes a cursor to a result and the cursor it leaves behind,
also when it fails: where a failed reader stops can be observed.
-/

namespace MatchTape.Packet

/-- The unread bytes and how many were read before them. -/
structure Cursor where
  rest : List UInt8
  position : Nat
  deriving DecidableEq, Repr

def Cursor.start (bytes : List UInt8) : Cursor :=
  ⟨bytes, 0⟩

def Cursor.remaining (cursor : Cursor) : Nat :=
  cursor.rest.length

/-- An action that reads at a cursor, may fail, and moves the cursor. -/
abbrev Reader := EStateM Fault Cursor

namespace Reader

def position : Reader Nat := do
  return (← get).position

/-- The next field, whatever its tag.  The tag byte decides the width. -/
def anyField : Reader Field := fun cursor =>
  match cursor.rest with
  | [] => .error (.shortField none cursor.position 1 0) cursor
  | byte :: rest =>
      match Tag.ofByte? byte with
      | none => .error (.violation cursor.position (.unknownTag byte)) cursor
      | some tag =>
          let value := rest.take tag.width
          if value.length = tag.width then
            .ok (.ofValue tag (Word.ofBytes value))
              ⟨rest.drop tag.width, cursor.position + tag.size⟩
          else
            .error (.shortField (some tag) cursor.position tag.size cursor.remaining) cursor

def field (tag : Tag) : Reader Field := fun cursor =>
  match cursor.rest with
  | [] => .error (.shortField (some tag) cursor.position tag.size 0) cursor
  | byte :: _ =>
      if byte = tag.byte then anyField cursor
      else .error (.violation cursor.position (.wrongTag tag byte)) cursor

/-- The value of the next field, which must have the given tag and hold one
byte.  A field of another width is refused after it has been read. -/
def byteField (tag : Tag) : Reader UInt8 := do
  match ← field tag with
  | .kind value | .relay value | .player value => return value
  | other => throw (.violation (← position) (.notByteField other.tag))

def serialField : Reader UInt16 := do
  return UInt16.ofNat (← field .serial).value

def frameField : Reader UInt32 := do
  return UInt32.ofNat (← field .frame).value

def bytes (count : Nat) : Reader (List UInt8) := fun cursor =>
  let data := cursor.rest.take count
  if data.length = count then
    .ok data ⟨cursor.rest.drop count, cursor.position + count⟩
  else
    .error (.truncated cursor.position count cursor.remaining) cursor

/-- Refuse input with fewer than `count` unread bytes. -/
def require (count : Nat) : Reader Unit := fun cursor =>
  if (cursor.rest.take count).length = count then .ok () cursor
  else .error (.truncated cursor.position count cursor.remaining) cursor

def word (width : Nat) : Reader Nat := do
  return Word.ofBytes (← bytes width)

def word8 : Reader UInt8 := do
  return UInt8.ofNat (← word 1)

def word16 : Reader UInt16 := do
  return UInt16.ofNat (← word 2)

def word32 : Reader UInt32 := do
  return UInt32.ofNat (← word 4)

def signed32 : Reader Int32 := do
  return (← word32).toInt32

def word64 : Reader UInt64 := do
  return UInt64.ofNat (← word 8)

def real : Reader Binary32 := do
  return ⟨← word32⟩

/-- A text that ends at the next zero byte, which is read too. -/
def terminated : Reader String := fun cursor =>
  let body := cursor.rest.takeWhile (· != 0)
  match cursor.rest.drop body.length with
  | [] =>
      .error (.truncated cursor.position (cursor.remaining + 1) cursor.remaining) cursor
  | _ :: rest =>
      match Text.ofUtf8? body with
      | none => .error (.badText cursor.position) cursor
      | some text => .ok text ⟨rest, cursor.position + body.length + 1⟩

def pairUp : List UInt8 → List UInt16
  | low :: high :: rest => UInt16.ofNat (Word.ofBytes [low, high]) :: pairUp rest
  | _ => []

def units (count : Nat) : Reader (List UInt16) := do
  return pairUp (← bytes (2 * count))

end Reader

end MatchTape.Packet
