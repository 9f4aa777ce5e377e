import MatchTape.Tape.Draft
import MatchTape.World.Arena

/-!
# Recording a match

The host of a match carries out the commands of every frame and writes them
down, now and then together with the checksum that the frame led to.
-/

namespace MatchTape.Tape

open Packet Record World

structure Recording where
  arena : Arena
  draft : Draft
  /-- Frames from one reported checksum to the next; none are reported for zero. -/
  interval : UInt32
  /-- The player in whose name checksums are reported. -/
  host : UInt8
  deriving DecidableEq, Repr

namespace Recording

def begin (sheet : MatchSheet) (interval : UInt32) : Except Failure Recording :=
  match Setup.ofSheet sheet with
  | .error refusal => .error (.world refusal)
  | .ok setup =>
      .ok { arena := .begin setup, draft := .begin sheet, interval, host := setup.hostSlot }

def checksumReport (host : UInt8) (frame checksum : UInt32) : Command where
  header := { player := host, frame }
  body := .game (.ofChecksum checksum)

def reports (interval frame : UInt32) : Bool :=
  interval != 0 && frame % interval == 0

def frame (recording : Recording) : UInt32 :=
  recording.arena.frame

/-- Play a frame with the given commands and write it down; the result is the
checksum of the frame.  A frame that cannot be written down has been played all
the same. -/
def record (commands : List Command) : EStateM Failure Recording UInt32 := fun recording =>
  let frame := recording.arena.frame
  let arena := (commands.foldl (fun arena command => arena.apply command) recording.arena).advance
  let checksum := arena.checksum
  let report :=
    if reports recording.interval frame then [checksumReport recording.host frame checksum]
    else []
  match Draft.add ⟨frame, commands ++ report⟩ recording.draft with
  | .ok () draft => .ok checksum { recording with arena, draft }
  | .error failure draft => .error failure { recording with arena, draft }

def finish (recording : Recording) : List UInt8 :=
  recording.draft.finish recording.arena.frame

end Recording

end MatchTape.Tape
