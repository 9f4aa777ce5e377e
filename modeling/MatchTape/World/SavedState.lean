import MatchTape.Packet.Reader
import MatchTape.World.Arena

/-!
# Saved states

The state of an arena between two frames as bytes.  Loading takes a whole state
or nothing: on any fault the arena stays as it was.
-/

namespace MatchTape.World

open Packet

namespace Arena

def stateVersion : UInt8 := 1

def savedPoint (point : Point) : List UInt8 :=
  Encoding.real point.x ++ Encoding.real point.y

/-- A walker with its id; its target stands behind a byte that says whether it has one. -/
def savedWalker (id : UInt32) (walker : Walker) : List UInt8 :=
  Encoding.word32 id ++ walker.owner :: savedPoint walker.position ++
    match walker.target with
    | some target => 1 :: savedPoint target
    | none => [0]

/-- The bytes of the state, the walkers in ascending order of their ids.  The map's name
ends at its first NUL. -/
def save (arena : Arena) : List UInt8 :=
  stateVersion :: Encoding.terminated ((arena.setup.map Setup.map).getD "") ++
    Encoding.word32 arena.frame ++ Encoding.word32 arena.random ++
    Encoding.word32 arena.nextId ++ Encoding.word32 (UInt32.ofNat arena.walkers.size) ++
    arena.walkers.toList.flatMap fun (id, walker) => savedWalker id walker

def readPoint : Reader Point := do
  return ⟨← Reader.real, ← Reader.real⟩

/-- Read an id and its walker.  Every byte but zero announces a target. -/
def readWalker : Reader (UInt32 × Walker) := do
  let id ← Reader.word32
  let owner ← Reader.word8
  let position ← readPoint
  let flag ← Reader.word8
  if flag = 0 then
    return (id, { owner, position })
  else
    return (id, { owner, position, target := some (← readPoint) })

/-- Read walkers and put them among others; of two with the same id the later stays. -/
def readWalkers :
    Nat → Std.ExtTreeMap UInt32 Walker → Reader (Std.ExtTreeMap UInt32 Walker)
  | 0, walkers => return walkers
  | count + 1, walkers => do
      let (id, walker) ← readWalker
      readWalkers count (walkers.insert id walker)

def readFields (setup : Setup) : Reader Arena := do
  let frame ← Reader.word32
  let random ← Reader.word32
  let nextId ← Reader.word32
  let count ← Reader.word32
  let walkers ← readWalkers count.toNat ∅
  return { setup := some setup, frame, random, nextId, walkers }

/-- Turn the outcome of a reader into a result with the rest of the input. -/
def readState {α : Type} (reader : Reader α) (cursor : Cursor) : Except Refusal (α × Cursor) :=
  match reader cursor with
  | .ok value cursor => .ok (value, cursor)
  | .error fault _ => .error (.malformedState fault)

/-- The arena that a saved state describes, for a match with the given setup.
Bytes behind the state are ignored. -/
def ofState (setup : Setup) (state : List UInt8) : Except Refusal Arena := do
  let (version, cursor) ← readState Reader.word8 (Cursor.start state)
  if version ≠ stateVersion then
    throw (.unsupportedState version)
  let (map, cursor) ← readState Reader.terminated cursor
  if map ≠ setup.map then
    throw (.otherMap setup.map map)
  let (arena, _) ← readState (readFields setup) cursor
  match arena.walkers.keys.getLast? with
  | some highest =>
      if arena.nextId ≤ highest then
        throw (.inconsistentState arena.nextId highest)
      else
        return arena
  | none => return arena

def load (state : List UInt8) (arena : Arena) : Except Refusal Arena :=
  match arena.setup with
  | none => .error .noSetup
  | some setup => ofState setup state

end Arena

end MatchTape.World
