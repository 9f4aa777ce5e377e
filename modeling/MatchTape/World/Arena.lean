import MatchTape.Digest
import MatchTape.Packet.Command
import MatchTape.Packet.Encoding
import MatchTape.World.Setup
import MatchTape.World.Walker
import Std.Data.ExtTreeMap

/-!
# The arena

The arena is a small world that depends on nothing but its setup and the
commands it is given.  Players create walkers and send them about; a player who
leaves loses all of them.  Its checksum covers every part of the state that can
tell two runs apart.
-/

namespace MatchTape.World

open Packet

/-- The state of a match between two frames. -/
structure Arena where
  setup : Option Setup := none
  frame : UInt32 := 0
  random : UInt32 := 0
  nextId : UInt32 := 0
  /-- Walkers by their ids. -/
  walkers : Std.ExtTreeMap UInt32 Walker := ∅
  /-- Commands for the next frame, in the order in which they came. -/
  pending : Array Command := #[]
  deriving DecidableEq, Repr, Inhabited

namespace Arena

/-- An arena in which no match has begun. -/
def empty : Arena := {}

def walker? (arena : Arena) (id : UInt32) : Option Walker :=
  arena.walkers[id]?

/-- Create a walker under the next id.  The last id of all is never given out. -/
def create (owner : UInt8) (position : Point) (arena : Arena) : Arena :=
  if arena.nextId.toNat + 1 < UInt32.size then
    { arena with
      nextId := arena.nextId + 1
      walkers := arena.walkers.insert arena.nextId { owner, position } }
  else
    arena

def removePlayer (player : UInt8) (arena : Arena) : Arena :=
  { arena with walkers := arena.walkers.filter fun _ walker => walker.owner != player }

/-- Give a walker a new target, or none, if the player owns it. -/
def order (player : UInt8) (id : UInt32) (target : Option Point) (arena : Arena) : Arena :=
  { arena with
    walkers := arena.walkers.modify id fun walker =>
      if walker.owner = player then { walker with target } else walker }

/-- Begin a match: one walker for every taken seat, a hundred apart along one axis. -/
def begin (setup : Setup) : Arena :=
  setup.roster.foldl
    (fun arena place =>
      arena.create place.slot ⟨.ofNat (place.slot.toNat * 100), .zero⟩)
    { setup := some setup, random := setup.seed, nextId := 1 }

def createCode : UInt32 := 1001

def moveCode : UInt32 := 1002

def haltCode : UInt32 := 1003

/-- Carry out a message of a player.  Any other code or shape of arguments means nothing. -/
def obey (player : UInt8) (message : Message) (arena : Arena) : Arena :=
  match message.arguments with
  | [.location x y _] =>
      if message.code = createCode then arena.create player ⟨x, y⟩ else arena
  | [.objectId id, .location x y _] =>
      if message.code = moveCode then arena.order player id (some ⟨x, y⟩) else arena
  | [.objectId id] =>
      if message.code = haltCode then arena.order player id none else arena
  | _ => arena

/-- Carry out a command.  A player with an index above 255 does not exist. -/
def execute (arena : Arena) (command : Command) : Arena :=
  match command.body with
  | .game message => arena.obey command.header.player message
  | .playerLeave player => arena.removePlayer player
  | .destroyPlayer index =>
      if index < 256 then arena.removePlayer index.toUInt8 else arena
  | _ => arena

/-- Keep a command for the next frame. -/
def apply (command : Command) (arena : Arena) : Arena :=
  { arena with pending := arena.pending.push command }

def executePending (arena : Arena) : Arena :=
  arena.pending.toList.foldl execute { arena with pending := #[] }

def nextRandom (random : UInt32) : UInt32 :=
  random * 1103515245 + 12345

/-- Play one frame: commands first, then every walker walks. -/
def advance (arena : Arena) : Arena :=
  let arena := arena.executePending
  { arena with
    walkers := arena.walkers.map fun _ walker => walker.step
    random := nextRandom arena.random
    frame := arena.frame + 1 }

/-- A number as checksums see it. -/
def canonicalBytes (number : Binary32) : List UInt8 :=
  Encoding.word32 number.canonicalBits

def pointBytes (point : Point) : List UInt8 :=
  canonicalBytes point.x ++ canonicalBytes point.y

def walkerBytes (id : UInt32) (walker : Walker) : List UInt8 :=
  Encoding.word32 id ++ walker.owner :: pointBytes walker.position ++
    match walker.target with
    | some target => pointBytes target
    | none => []

/-- The bytes that the checksum is taken of, the walkers in ascending order of their ids. -/
def fingerprint (arena : Arena) : List UInt8 :=
  Encoding.word32 arena.frame ++ Encoding.word32 arena.random ++
    arena.walkers.toList.flatMap fun (id, walker) => walkerBytes id walker

def checksum (arena : Arena) : UInt32 :=
  Digest.Fold.ofBytes arena.fingerprint

end Arena

end MatchTape.World
