import MatchTape.Bytes.Word
import MatchTape.Packet.Kind

/-!
# Why a packet is refused

A fault names the cause and the place of a refused packet.  `Fault.message` is
the only place that words it.
-/

namespace MatchTape.Packet

/-- A byte sequence that breaks the rules of the packet it is read as. -/
inductive Violation where
  | unknownTag (byte : UInt8)
  | wrongTag (expected : Tag) (found : UInt8)
  | notByteField (tag : Tag)
  | unknownKind (byte : UInt8)
  | otherKind (expected : Kind) (found : UInt8)
  | unknownArgument (code : UInt8)
  | fragmentNumber (number count : UInt32)
  | fragmentRange (offset length total : UInt32)
  deriving DecidableEq, Repr

/-- What all fragments of one wrapped command agree on. -/
structure FragmentSet where
  wrapped : UInt16
  count : UInt32
  total : UInt32
  deriving DecidableEq, Repr

/-- Why a fragment does not fit those that arrived before it. -/
inductive Mismatch where
  | alreadyComplete
  | otherSet (set : FragmentSet)
  | numberOutside (number count : UInt32)
  | repeatedNumber (number : UInt32)
  | beyondTotal (start stop : Nat) (total : UInt32)
  | overlap (start stop : Nat)
  | uncovered (count : UInt32) (covered : Nat) (total : UInt32)
  deriving DecidableEq, Repr

inductive Fault where
  | shortField (tag : Option Tag) (offset needed available : Nat)
  | violation (offset : Nat) (cause : Violation)
  | truncated (offset declared available : Nat)
  | badText (offset : Nat)
  | fragment (wrapped : UInt16) (cause : Mismatch)
  deriving DecidableEq, Repr

def hexByte (byte : UInt8) : String :=
  "0x" ++ Hex.ofBytes [byte]

def Violation.message : Violation → String
  | unknownTag byte => "unknown field tag byte " ++ hexByte byte
  | wrongTag expected found =>
      "expected field " ++ expected.quoted ++ ", found byte " ++ hexByte found
  | notByteField tag => "field " ++ tag.quoted ++ " is not a byte field"
  | unknownKind byte => s!"unknown command type {byte}"
  | otherKind expected found => s!"decoding {expected.name} but command type is {found}"
  | unknownArgument code => s!"unknown argument type {code}"
  | fragmentNumber number count => s!"chunk {number} outside [0, {count})"
  | fragmentRange offset length total =>
      s!"chunk range {offset}+{length} exceeds total length {total}"

def FragmentSet.message (set : FragmentSet) : String :=
  s!"ChunkSet \x7b wrapped_command_id: {set.wrapped}, num_chunks: {set.count}, " ++
    s!"total_data_length: {set.total} \x7d"

def Mismatch.message : Mismatch → String
  | alreadyComplete => "chunk arrived after the command was complete"
  | otherSet set => s!"chunk disagrees with set {set.message}"
  | numberOutside number count => s!"chunk number {number} outside [0, {count})"
  | repeatedNumber number => s!"duplicate chunk number {number}"
  | beyondTotal start stop total => s!"range {start}..{stop} exceeds total length {total}"
  | overlap start stop => s!"range {start}..{stop} overlaps an earlier chunk"
  | uncovered count covered total =>
      s!"all {count} chunks received but only {covered} of {total} bytes covered"

def soughtName : Option Tag → String
  | some tag => s!"Some({tag.name})"
  | none => "None"

def Fault.message : Fault → String
  | shortField tag offset needed available =>
      s!"malformed field at offset {offset}: {soughtName tag} needs {needed} bytes, " ++
        s!"{available} available"
  | violation offset cause => s!"protocol violation at offset {offset}: {cause.message}"
  | truncated offset declared available =>
      s!"truncated payload at offset {offset}: declared {declared} bytes, {available} available"
  | badText offset => s!"invalid text at offset {offset}"
  | fragment wrapped cause =>
      s!"inconsistent chunk set for wrapped command {wrapped}: {cause.message}"

end MatchTape.Packet
