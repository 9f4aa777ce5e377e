import MatchTape.Record.Entry

/-!
# Checkpoints

A checkpoint holds all that is needed to go on with a playback later: which
recording it belongs to, how far it got, and the state of the world.
-/

namespace MatchTape.Record

/-- A place in a recording from which playback can go on. -/
structure Checkpoint where
  recording : String := ""
  digest : String := ""
  map : String := ""
  host : String := ""
  frame : UInt32 := 0
  accumulator : UInt32 := 0
  offset : UInt64 := 0
  playback : Bool := false
  state : List UInt8 := []
  deriving DecidableEq, Repr, Inhabited

namespace Checkpoint

def entries (checkpoint : Checkpoint) : List Entry :=
  Entry.ofText 1 checkpoint.recording ++ Entry.ofText 2 checkpoint.digest ++
    Entry.ofText 3 checkpoint.map ++ Entry.ofText 4 checkpoint.host ++
    Entry.ofNumber 5 checkpoint.frame.toUInt64 ++
    Entry.ofNumber 6 checkpoint.accumulator.toUInt64 ++ Entry.ofNumber 7 checkpoint.offset ++
    Entry.ofNumber 8 (if checkpoint.playback then 1 else 0) ++ Entry.ofBlock 9 checkpoint.state

def bytes (checkpoint : Checkpoint) : List UInt8 :=
  checkpoint.entries.flatMap Entry.bytes

/-- Take over what an entry says.  An entry that repeats an earlier one replaces it. -/
def absorb (checkpoint : Checkpoint) (entry : Entry) : Option Checkpoint :=
  match entry.number with
  | 1 => do return { checkpoint with recording := ← Entry.text? entry.payload }
  | 2 => do return { checkpoint with digest := ← Entry.text? entry.payload }
  | 3 => do return { checkpoint with map := ← Entry.text? entry.payload }
  | 4 => do return { checkpoint with host := ← Entry.text? entry.payload }
  | 5 => do return { checkpoint with frame := (← Entry.number? entry.payload).toUInt32 }
  | 6 => do return { checkpoint with accumulator := (← Entry.number? entry.payload).toUInt32 }
  | 7 => do return { checkpoint with offset := ← Entry.number? entry.payload }
  | 8 => do return { checkpoint with playback := (← Entry.number? entry.payload) != 0 }
  | 9 => do return { checkpoint with state := ← Entry.block? entry.payload }
  | _ => some checkpoint

def ofBytes? (input : List UInt8) : Option Checkpoint := do
  (← Entry.list? Entry.outerDepth input).foldlM absorb {}

end Checkpoint

end MatchTape.Record
