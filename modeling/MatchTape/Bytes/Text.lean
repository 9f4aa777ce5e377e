/-!
# Text in bytes and in units

Names and file names travel as UTF-8, chat travels as UTF-16 units.  The module
gives both encodings of a text, the readers that accept exactly well-formed
input, and the part of a text that a NUL-terminated field can hold.
-/

namespace MatchTape

namespace Text

def utf8 (text : String) : List UInt8 :=
  text.toByteArray.data.toList

def ofUtf8? (bytes : List UInt8) : Option String :=
  String.fromUTF8? ⟨bytes.toArray⟩

@[simp] theorem ofUtf8?_utf8 (text : String) : ofUtf8? (utf8 text) = some text := by
  simp [ofUtf8?, utf8, String.fromUTF8?, String.fromUTF8, text.isValidUTF8]

/-- The part of a text before its first NUL character. -/
def beforeNul (text : String) : String :=
  String.ofList (text.toList.takeWhile (· != '\x00'))

def isLeading (unit : UInt16) : Bool :=
  0xD800 ≤ unit && unit < 0xDC00

def isTrailing (unit : UInt16) : Bool :=
  0xDC00 ≤ unit && unit < 0xE000

/-- The one or two UTF-16 units of a character. -/
def unitsOf (char : Char) : List UInt16 :=
  if char.toNat < 0x10000 then
    [UInt16.ofNat char.toNat]
  else
    let beyond := char.toNat - 0x10000
    [UInt16.ofNat (0xD800 + beyond / 0x400), UInt16.ofNat (0xDC00 + beyond % 0x400)]

def pairChar (leading trailing : UInt16) : Char :=
  Char.ofNat (0x10000 + (leading.toNat - 0xD800) * 0x400 + (trailing.toNat - 0xDC00))

def utf16 (chars : List Char) : List UInt16 :=
  chars.flatMap unitsOf

/-- The characters with the given UTF-16 units; a unit of a pair must not stand alone. -/
def ofUtf16? : List UInt16 → Option (List Char)
  | [] => some []
  | unit :: rest =>
      if isLeading unit then
        match rest with
        | trailing :: rest =>
            if isTrailing trailing then (ofUtf16? rest).map (pairChar unit trailing :: ·)
            else none
        | [] => none
      else if isTrailing unit then none
      else (ofUtf16? rest).map (Char.ofNat unit.toNat :: ·)

/-- Units without a first unit of a pair at their end, where its second one is missing. -/
def dropStranded (units : List UInt16) : List UInt16 :=
  if units.getLast?.any isLeading then units.dropLast else units

/-- Units cut to a length, and by one more if that would tear a pair apart. -/
def cut (room : Nat) (units : List UInt16) : List UInt16 :=
  if units.length ≤ room then units else dropStranded (units.take room)

/-- The longest run of whole characters at the front that takes at most `room` units. -/
def fitting : Nat → List Char → List Char
  | _, [] => []
  | room, char :: rest =>
      if (unitsOf char).length ≤ room then
        char :: fitting (room - (unitsOf char).length) rest
      else
        []

end Text

end MatchTape
