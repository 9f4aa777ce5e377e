import MatchTape.Tape.Recording

/-!
# Exhibition matches

A match without players, made up so that there is something to record: now and
then every player's first walker is sent to a random place.
-/

namespace MatchTape

open Packet Record Tape

/-- The settings of an exhibition match. -/
structure Exhibition where
  map : String
  seed : UInt32
  players : UInt8
  frames : UInt32
  interval : UInt32
  deriving DecidableEq, Repr, Inhabited

namespace Exhibition

def build : String := "0.0.0"

def orderInterval : UInt32 := 90

def playerName (slot : Nat) : String :=
  s!"player{slot}"

/-- The seat of a slot; slots take turns in two teams. -/
def seat (slot : Nat) : Seat where
  slot := UInt32.ofNat slot
  player := playerName slot
  team := Int32.ofNat (slot % 2)

def sheet (exhibition : Exhibition) : MatchSheet where
  map := exhibition.map
  host := playerName 0
  seed := exhibition.seed
  roster := (List.range exhibition.players.toNat).map seat
  build := build

def nextRandom (random : UInt32) : UInt32 :=
  random * 1664525 + 1013904223

/-- The coordinate that a random state stands for, from -500 up to 499. -/
def coordinate (random : UInt32) : Binary32 :=
  .ofValue (Float32.ofNat (random.toNat / 65536 % 1000) - 500)

def order (player frame : Nat) (x y : Binary32) : Command where
  header := { player := UInt8.ofNat player, frame := UInt32.ofNat frame }
  body := .game ⟨World.Arena.moveCode,
    [.objectId (UInt32.ofNat (player + 1)), .location x y .zero]⟩

/-- The orders of `left` more players, and the random state behind them.  Each
order takes two random states. -/
def orders (frame : Nat) : Nat → Nat → UInt32 → List Command × UInt32
  | 0, _, random => ([], random)
  | left + 1, player, random =>
      let x := nextRandom random
      let y := nextRandom x
      let (others, random) := orders frame left (player + 1) y
      (order player frame (coordinate x) (coordinate y) :: others, random)

def playFrames (exhibition : Exhibition) :
    Nat → Nat → UInt32 → Recording → Except Failure Recording
  | 0, _, _, recording => .ok recording
  | left + 1, frame, random, recording =>
      let (commands, random) :=
        if frame % orderInterval.toNat = 0 then
          orders frame exhibition.players.toNat 0 random
        else ([], random)
      match Recording.record commands recording with
      | .error failure _ => .error failure
      | .ok _ recording => playFrames exhibition left (frame + 1) random recording

def record (exhibition : Exhibition) : Except Failure (List UInt8) := do
  let recording ← Recording.begin exhibition.sheet exhibition.interval
  let recording ← exhibition.playFrames exhibition.frames.toNat 0 exhibition.seed recording
  return recording.finish

end Exhibition

end MatchTape
