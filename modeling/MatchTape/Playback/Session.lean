import MatchTape.Failure
import MatchTape.Files.Writing
import MatchTape.Playback.Report
import MatchTape.Record.Checkpoint
import MatchTape.Tape.Basic
import MatchTape.World.SavedState

/-!
# Playing a tape

A session gives the recorded commands of each frame to an arena, plays the frame
and compares its checksum with the recorded one.  It goes on until all frames are
played, a checksum is contradicted, a requested checkpoint is due, or it is asked
to stop.  Checkpoints are kept in a store, which saves and loads them by name.  It acts
on a state of its own, so that one store may keep them in a folder and another in memory.
-/

namespace MatchTape.Playback

open Packet Record World

/-- A place for checkpoints with a state of type `σ`. -/
structure Store (σ : Type) where
  save : String → Checkpoint → σ → Except Unsaved Unit × σ
  load : String → σ → Except Unloadable Checkpoint

def Store.inFolder (folder : String) : Store Files.Tree where
  save name checkpoint tree :=
    let (saved, tree) := tree.writeDeep (Files.Path.join folder name) checkpoint.bytes
    (saved.mapError .unwritable, tree)
  load name tree :=
    let path := Files.Path.join folder name
    match tree.read path with
    | .error fault => .error (.unreadable path fault)
    | .ok contents =>
        match Checkpoint.ofBytes? contents with
        | none => .error .badRecord
        | some checkpoint => .ok checkpoint

/-- Save a checkpoint once a number of frames have been played. -/
structure SaveRequest where
  frame : UInt32
  name : String
  deriving DecidableEq, Repr

inductive Verdict where
  | completed (frames checksum accumulator : UInt32)
  | diverged (frame expected actual : UInt32)
  | saved (frame : UInt32) (name : String)
  | stopped (frame : UInt32)
  deriving DecidableEq, Repr

def Verdict.isError : Verdict → Bool
  | diverged _ _ _ => true
  | _ => false

structure Session where
  tape : Tape
  arena : Arena
  accumulator : UInt32
  diverged : Bool := false
  request : Option SaveRequest := none
  stopRaised : Bool := false
  /-- One report for every frame that was played, in order. -/
  reports : Array Report := #[]

namespace Session

/-- Go on with an arena and a tape that already stand at the same frame. -/
def resume (tape : Tape) (arena : Arena) (accumulator : UInt32) : Session :=
  { tape, arena, accumulator }

def start (tape : Tape) : Except Failure Session :=
  match Setup.ofSheet tape.sheet with
  | .error refusal => .error (.world refusal)
  | .ok setup => .ok (resume tape (.begin setup) 0)

/-- Ask for a checkpoint, instead of one that may have been asked for before. -/
def requestCheckpoint (request : SaveRequest) (session : Session) : Session :=
  { session with request := some request }

def raiseStop (session : Session) : Session :=
  { session with stopRaised := true }

def lowerStop (session : Session) : Session :=
  { session with stopRaised := false }

def frame (session : Session) : UInt32 :=
  session.arena.frame

def frameCount (session : Session) : UInt32 :=
  session.tape.frameCount

def isComplete (session : Session) : Bool :=
  session.frameCount ≤ session.frame

def framesLeft (session : Session) : Nat :=
  session.frameCount.toNat - session.frame.toNat

/-- Play one frame: give its commands to the arena, play, compare. -/
def execute (batch : Option Tape.Batch) (session : Session) : Report × Session :=
  let frame := session.arena.frame
  let orders := (batch.map Tape.Batch.orders).getD []
  let expected := batch.bind Tape.Batch.expected?
  let arena := (orders.foldl (fun arena command => arena.apply command) session.arena).advance
  let checksum := arena.checksum
  let accumulator := Digest.Fold.step session.accumulator checksum
  let diverged := expected.any (· != checksum)
  let report : Report := { frame, checksum, expected, accumulator, diverged }
  (report, { session with
    arena, accumulator
    diverged := session.diverged || diverged
    reports := session.reports.push report })

def step : EStateM Failure Session Report := fun session =>
  match Tape.take session.arena.frame session.tape with
  | .error failure tape => .error failure { session with tape }
  | .ok batch tape =>
      let (report, session) := execute batch { session with tape }
      .ok report session

/-- Why a run comes to rest. -/
inductive Halt where
  | completed
  | stopped
  | due (name : String)
  | contradicted (frame expected actual : UInt32)
  deriving DecidableEq, Repr

def due? (session : Session) : Option String :=
  match session.request with
  | some request => if session.frame = request.frame then some request.name else none
  | none => none

/-- Play at most `left` frames.  A due checkpoint goes before a contradicted checksum. -/
def playFrames : Nat → EStateM Failure Session Halt
  | 0 => fun session => .ok (if session.stopRaised then .stopped else .completed) session
  | left + 1 => fun session =>
      if session.stopRaised then .ok .stopped session
      else
        match step session with
        | .error failure session => .error failure session
        | .ok report session =>
            match session.due? with
            | some name => .ok (.due name) session
            | none =>
                match report.contradicted? with
                | some expected =>
                    .ok (.contradicted report.frame expected report.checksum) session
                | none => playFrames left session

def play : EStateM Failure Session Halt := fun session =>
  playFrames session.framesLeft session

/-- What a halt says of the session it left behind. -/
def verdict (session : Session) : Halt → Verdict
  | .completed => .completed session.frame session.arena.checksum session.accumulator
  | .stopped => .stopped session.frame
  | .due name => .saved session.frame name
  | .contradicted frame expected actual => .diverged frame expected actual

def checkpoint (session : Session) : Checkpoint where
  recording := session.tape.name
  digest := session.tape.digest
  map := session.tape.sheet.map
  host := session.tape.sheet.host
  frame := session.frame
  accumulator := session.accumulator
  offset := UInt64.ofNat session.tape.position
  playback := true
  state := session.arena.save

/-- The request, if its frame is not one that is still to be played. -/
def outsideRequest? (session : Session) : Option SaveRequest :=
  session.request.filter fun request =>
    request.frame ≤ session.frame || session.frameCount < request.frame

def outsideFailure (session : Session) (request : SaveRequest) : Failure :=
  .checkpointSave request.name
    (.outsideRemaining request.frame (session.frame.toNat + 1) session.frameCount)

/-- Play on until the session comes to rest, and save the checkpoint if that is why. -/
def run {σ : Type} (store : Store σ) (session : Session) (shelf : σ) :
    Except Failure Verdict × Session × σ :=
  match session.outsideRequest? with
  | some request => (.error (session.outsideFailure request), session, shelf)
  | none =>
      match play session with
      | .error failure session => (.error failure, session, shelf)
      | .ok halt session =>
          match halt with
          | .due name =>
              match store.save name session.checkpoint shelf with
              | (.error cause, shelf) => (.error (.checkpointSave name cause), session, shelf)
              | (.ok (), shelf) => (.ok (session.verdict halt), session, shelf)
          | _ => (.ok (session.verdict halt), session, shelf)

end Session

end MatchTape.Playback
