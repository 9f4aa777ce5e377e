import MatchTape.Playback.Session

/-!
# Going on from a checkpoint

A resumption takes a recording, then a checkpoint that was saved from it, and
then plays on.  Each of the three happens once and in this order; a call out of
turn changes nothing, and any other failure ends the resumption.
-/

namespace MatchTape.Playback

open Record World

/-- How far a resumption has come. -/
inductive Stage where
  | idle
  | recordingLoaded
  | checkpointLoaded
  | completed
  | diverged
  | failed
  deriving DecidableEq, Repr, Inhabited

def Stage.name : Stage → String
  | idle => "Idle"
  | recordingLoaded => "ReplayContextLoaded"
  | checkpointLoaded => "CheckpointLoaded"
  | completed => "Completed"
  | diverged => "Diverged"
  | failed => "Failed"

structure Resumption where
  arena : Arena
  stage : Stage := .idle
  tape : Option Tape := none
  accumulator : UInt32 := 0
  /-- One report for every frame that was played after the checkpoint. -/
  reports : Array Report := #[]

namespace Resumption

def begin (arena : Arena) : Resumption :=
  { arena }

def frame (resumption : Resumption) : UInt32 :=
  resumption.arena.frame

def frameCount (resumption : Resumption) : UInt32 :=
  (resumption.tape.map Tape.frameCount).getD 0

def fail (resumption : Resumption) : Resumption :=
  { resumption with stage := .failed }

/-- Do something that belongs to one stage only. -/
def atStage {α : Type} (stage : Stage) (operation : String)
    (action : EStateM Failure Resumption α) : EStateM Failure Resumption α := fun resumption =>
  if resumption.stage = stage then action resumption
  else .error (.outOfTurn operation resumption.stage.name) resumption

def openTape (name : String) (contents : Except Files.Fault (List UInt8)) :
    Except Failure (Tape × Setup) :=
  match contents with
  | .error fault => .error (.files fault)
  | .ok contents =>
      match Tape.ofBytes name contents with
      | .error failure => .error failure
      | .ok tape =>
          match Setup.ofSheet tape.sheet with
          | .error refusal => .error (.world refusal)
          | .ok setup => .ok (tape, setup)

/-- Take the recording of the given name, whose file was read with the given
result, and begin its match. -/
def loadRecording (name : String) (contents : Except Files.Fault (List UInt8)) :
    EStateM Failure Resumption Unit :=
  atStage .idle "load_replay_context" fun resumption =>
    match openTape name contents with
    | .error cause => .error (.cannotOpen name cause) resumption.fail
    | .ok (tape, setup) =>
        .ok () { resumption with
          arena := .begin setup
          tape := some tape
          stage := .recordingLoaded }

/-- Why a checkpoint does not belong to a tape, judged before its state is loaded. -/
def objection? (tape : Tape) (checkpoint : Checkpoint) : Option Unloadable :=
  if !checkpoint.playback then some .notPlayback
  else if checkpoint.digest ≠ tape.digest then
    some (.otherRecording checkpoint.recording checkpoint.digest tape.name tape.digest)
  else if tape.frameCount < checkpoint.frame then
    some (.pastEnd checkpoint.frame tape.frameCount)
  else none

/-- Put arena and tape where a checkpoint stands. -/
def restore (found : Except Unloadable Checkpoint) :
    EStateM Unloadable Resumption Unit := fun resumption =>
  match found with
  | .error cause => .error cause resumption
  | .ok checkpoint =>
      match resumption.tape with
      | none => .error .noRecording resumption
      | some tape =>
          match objection? tape checkpoint with
          | some cause => .error cause resumption
          | none =>
              match resumption.arena.load checkpoint.state with
              | .error refusal => .error (.badState refusal) resumption
              | .ok arena =>
                  if arena.frame ≠ checkpoint.frame then
                    .error (.otherFrame arena.frame checkpoint.frame) { resumption with arena }
                  else
                    match Tape.seek checkpoint.offset.toNat tape with
                    | .error _ tape =>
                        .error (.badOffset checkpoint.offset.toNat
                          (.outsidePackets tape.packetsStart tape.contents.length))
                          { resumption with arena }
                    | .ok () tape =>
                        .ok () { resumption with
                          arena
                          tape := some tape
                          accumulator := checkpoint.accumulator }

/-- Take the checkpoint of the given name, which was loaded with the given result. -/
def loadCheckpoint (name : String) (found : Except Unloadable Checkpoint) :
    EStateM Failure Resumption Unit :=
  atStage .recordingLoaded "load_checkpoint" fun resumption =>
    match restore found resumption with
    | .error cause resumption => .error (.checkpointLoad name cause) resumption.fail
    | .ok () resumption => .ok () { resumption with stage := .checkpointLoaded }

def stageOf : Verdict → Stage
  | .completed _ _ _ => .completed
  | .diverged _ _ _ => .diverged
  | _ => .failed

def resume : EStateM Failure Resumption Verdict :=
  atStage .checkpointLoaded "resume" fun resumption =>
    match resumption.tape with
    | none => .error (.outOfTurn "resume" resumption.stage.name) resumption.fail
    | some tape =>
        match Session.play (.resume tape resumption.arena resumption.accumulator) with
        | .error failure session =>
            .error failure { resumption with
              arena := session.arena
              tape := none
              reports := session.reports
              stage := .failed }
        | .ok halt session =>
            let verdict := session.verdict halt
            .ok verdict { resumption with
              arena := session.arena
              tape := none
              reports := session.reports
              stage := stageOf verdict }

end Resumption

end MatchTape.Playback
