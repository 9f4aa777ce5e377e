import MatchTape.Packet.Reader

/-!
# Game messages

A message is a code and a list of typed arguments.  Its encoding declares the
types first, as runs of equal types, so that a reader knows how many bytes the
arguments take before it reads the first of them.  A run covers at most 255
arguments and a message has at most 255 runs; arguments beyond the last run are
not sent.
-/

namespace MatchTape.Packet

inductive ArgumentType where
  | integer
  | real
  | boolean
  | objectId
  | drawableId
  | teamId
  | location
  | pixel
  | pixelRegion
  | timestamp
  | wideChar
  deriving DecidableEq, Repr

namespace ArgumentType

def all : List ArgumentType :=
  [integer, real, boolean, objectId, drawableId, teamId, location, pixel, pixelRegion,
    timestamp, wideChar]

def code : ArgumentType → UInt8
  | integer => 0
  | real => 1
  | boolean => 2
  | objectId => 3
  | drawableId => 4
  | teamId => 5
  | location => 6
  | pixel => 7
  | pixelRegion => 8
  | timestamp => 9
  | wideChar => 10

def ofCode? (code : UInt8) : Option ArgumentType :=
  all.find? (·.code == code)

def width : ArgumentType → Nat
  | integer | real | objectId | drawableId | teamId | timestamp => 4
  | boolean => 1
  | location => 12
  | pixel => 8
  | pixelRegion => 16
  | wideChar => 2

@[simp] theorem ofCode?_code (type : ArgumentType) : ofCode? type.code = some type := by
  cases type <;> decide

end ArgumentType

inductive Argument where
  | integer (value : Int32)
  | real (value : Binary32)
  | boolean (value : Bool)
  | objectId (id : UInt32)
  | drawableId (id : UInt32)
  | teamId (id : UInt32)
  | location (x y z : Binary32)
  | pixel (x y : Int32)
  | pixelRegion (lowX lowY highX highY : Int32)
  | timestamp (value : UInt32)
  | wideChar (unit : UInt16)
  deriving DecidableEq, Repr

namespace Argument

def type : Argument → ArgumentType
  | integer _ => .integer
  | real _ => .real
  | boolean _ => .boolean
  | objectId _ => .objectId
  | drawableId _ => .drawableId
  | teamId _ => .teamId
  | location _ _ _ => .location
  | pixel _ _ => .pixel
  | pixelRegion _ _ _ _ => .pixelRegion
  | timestamp _ => .timestamp
  | wideChar _ => .wideChar

def signedBytes (value : Int32) : List UInt8 :=
  Word.toBytes 4 value.toUInt32.toNat

def realBytes (value : Binary32) : List UInt8 :=
  Word.toBytes 4 value.bits.toNat

def bytes : Argument → List UInt8
  | integer value => signedBytes value
  | real value => realBytes value
  | boolean value => [if value then 1 else 0]
  | objectId id | drawableId id | teamId id | timestamp id => Word.toBytes 4 id.toNat
  | location x y z => realBytes x ++ realBytes y ++ realBytes z
  | pixel x y => signedBytes x ++ signedBytes y
  | pixelRegion lowX lowY highX highY =>
      signedBytes lowX ++ signedBytes lowY ++ signedBytes highX ++ signedBytes highY
  | wideChar unit => Word.toBytes 2 unit.toNat

/-- Read the value of an argument of a known type.  Every byte but zero is true. -/
def read : ArgumentType → Reader Argument
  | .integer => do return integer (← Reader.signed32)
  | .real => do return real (← Reader.real)
  | .boolean => do return boolean ((← Reader.word8) != 0)
  | .objectId => do return objectId (← Reader.word32)
  | .drawableId => do return drawableId (← Reader.word32)
  | .teamId => do return teamId (← Reader.word32)
  | .location => do return location (← Reader.real) (← Reader.real) (← Reader.real)
  | .pixel => do return pixel (← Reader.signed32) (← Reader.signed32)
  | .pixelRegion => do
      return pixelRegion (← Reader.signed32) (← Reader.signed32) (← Reader.signed32)
        (← Reader.signed32)
  | .timestamp => do return timestamp (← Reader.word32)
  | .wideChar => do return wideChar (← Reader.word16)

def readMany (type : ArgumentType) : Nat → Reader (List Argument)
  | 0 => return []
  | count + 1 => do
      let argument ← read type
      let others ← readMany type count
      return argument :: others

def numericallyEqual : Argument → Argument → Bool
  | real left, real right => left.numericallyEqual right
  | location x y z, location x' y' z' =>
      x.numericallyEqual x' && y.numericallyEqual y' && z.numericallyEqual z'
  | left, right => left == right

@[simp] theorem length_bytes (argument : Argument) :
    argument.bytes.length = argument.type.width := by
  cases argument <;> simp [bytes, type, ArgumentType.width, signedBytes, realBytes]

end Argument

/-- Consecutive arguments of one type. -/
structure Run where
  type : ArgumentType
  count : Nat
  deriving DecidableEq, Repr

namespace Run

/-- The most arguments a run covers, and the most runs a message has. -/
def most : Nat := 255

def width (run : Run) : Nat :=
  run.type.width * run.count

def bytes (run : Run) : List UInt8 :=
  [run.type.code, UInt8.ofNat run.count]

/-- Extend a run as far as types and room allow, then open the next one. -/
def gatherFrom (run : Run) : List ArgumentType → List Run
  | [] => [run]
  | type :: types =>
      if run.type = type ∧ run.count < most then
        gatherFrom { run with count := run.count + 1 } types
      else
        run :: gatherFrom ⟨type, 1⟩ types

/-- The runs of a list of types, each as long as types and room allow. -/
def gather : List ArgumentType → List Run
  | [] => []
  | type :: types => gatherFrom ⟨type, 1⟩ types

def readMany : Nat → Reader (List Run)
  | 0 => return []
  | count + 1 => do
      let offset ← Reader.position
      let code ← Reader.word8
      let length ← Reader.word8
      match ArgumentType.ofCode? code with
      | none => throw (.violation offset (.unknownArgument code))
      | some type => do
          let others ← readMany count
          return ⟨type, length.toNat⟩ :: others

def readArguments : List Run → Reader (List Argument)
  | [] => return []
  | run :: runs => do
      let arguments ← Argument.readMany run.type run.count
      let others ← readArguments runs
      return arguments ++ others

end Run

structure Message where
  code : UInt32
  arguments : List Argument
  deriving DecidableEq, Repr, Inhabited

namespace Message

/-- The code of a message that reports the checksum of the frame it belongs to. -/
def checksumCode : UInt32 := 1095

def ofChecksum (checksum : UInt32) : Message :=
  ⟨checksumCode, [.integer checksum.toInt32]⟩

def checksum? (message : Message) : Option UInt32 :=
  match message.arguments with
  | [.integer value] =>
      if message.code = checksumCode then some value.toUInt32 else none
  | _ => none

def runs (message : Message) : List Run :=
  Run.gather (message.arguments.map Argument.type)

/-- Whether every argument can be sent. -/
def isEncodable (message : Message) : Bool :=
  message.runs.length ≤ Run.most

def sentRuns (message : Message) : List Run :=
  message.runs.take Run.most

def sentArguments (message : Message) : List Argument :=
  message.arguments.take (total (message.sentRuns.map Run.count))

/-- The message as it arrives. -/
def sent (message : Message) : Message :=
  { message with arguments := message.sentArguments }

def size (message : Message) : Nat :=
  4 + 1 + 2 * message.sentRuns.length + total (message.sentRuns.map Run.width)

def bytes (message : Message) : List UInt8 :=
  Word.toBytes 4 message.code.toNat ++
    UInt8.ofNat message.sentRuns.length :: message.sentRuns.flatMap Run.bytes ++
    message.sentArguments.flatMap Argument.bytes

/-- Read a message.  All its arguments must be there before the first is read. -/
def read : Reader Message := do
  let code ← Reader.word32
  let count ← Reader.word8
  let runs ← Run.readMany count.toNat
  Reader.require (total (runs.map Run.width))
  let arguments ← Run.readArguments runs
  return ⟨code, arguments⟩

def numericallyEqual (left right : Message) : Bool :=
  left.code == right.code && left.arguments.length == right.arguments.length &&
    (left.arguments.zip right.arguments).all fun (a, b) => a.numericallyEqual b

end Message

end MatchTape.Packet
