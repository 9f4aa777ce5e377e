import MatchTape.Packet.Reader

/-!
# Headers

Every command has the same four header fields.  Its kind decides which of them
are sent and in which order; the others are read back as zero.
-/

namespace MatchTape.Packet

/-- Who sent a command, to whom it is relayed, and when it takes effect. -/
structure Header where
  player : UInt8 := 0
  relay : UInt8 := 0
  frame : UInt32 := 0
  serial : UInt16 := 0
  deriving DecidableEq, Repr, Inhabited

namespace Header

/-- The header with every field that the kind does not send set to zero. -/
def normalized (kind : Kind) (header : Header) : Header where
  player := header.player
  relay := if kind.carries .relay then header.relay else 0
  frame := if kind.carries .frame then header.frame else 0
  serial := if kind.carries .serial then header.serial else 0

def field (kind : Kind) (header : Header) : Tag → Field
  | .kind => .kind kind.byte
  | .relay => .relay header.relay
  | .player => .player header.player
  | .serial => .serial header.serial
  | .frame => .frame header.frame
  | .data => .data

def bytes (kind : Kind) (header : Header) : List UInt8 :=
  kind.layout.flatMap fun tag => (header.field kind tag).bytes

/-- Read the field of one tag into a header.  The kind byte must name the kind. -/
def readField (kind : Kind) (header : Header) : Tag → Reader Header
  | .kind => do
      let offset ← Reader.position
      let found ← Reader.byteField .kind
      if found = kind.byte then
        return header
      else
        throw (.violation offset (.otherKind kind found))
  | .relay => do
      return { header with relay := ← Reader.byteField .relay }
  | .player => do
      return { header with player := ← Reader.byteField .player }
  | .serial => do
      return { header with serial := ← Reader.serialField }
  | .frame => do
      return { header with frame := ← Reader.frameField }
  | .data => do
      let _ ← Reader.field .data
      return header

def read (kind : Kind) : Reader Header :=
  kind.layout.foldlM (readField kind) {}

end Header

end MatchTape.Packet
