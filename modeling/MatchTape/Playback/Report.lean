import MatchTape.Digest

/-!
# Reports and what is told of them

A playback makes one report for every frame it executes.  Lines of progress and
the comparison of two playbacks are functions of these reports.
-/

namespace MatchTape.Playback

structure Report where
  frame : UInt32
  checksum : UInt32
  expected : Option UInt32
  accumulator : UInt32
  diverged : Bool
  deriving DecidableEq, Repr, Inhabited

namespace Report

def framesDone (report : Report) : UInt32 :=
  report.frame + 1

/-- The checksum that was expected, if the frame led to another. -/
def contradicted? (report : Report) : Option UInt32 :=
  if report.diverged then report.expected else none

end Report

def framesPerSecond : Nat := 30

def twoDigits (number : Nat) : String :=
  if number < 10 then s!"0{number}" else toString number

def minutes (seconds : Nat) : String :=
  s!"{twoDigits (seconds / 60)}:{twoDigits (seconds % 60)}"

/-- The line that sets real time beside game time. -/
def elapsedLine (seconds : Nat) (framesDone frameCount : UInt32) : String :=
  s!"Elapsed Time: {minutes seconds} Game Time: " ++
    s!"{minutes (framesDone.toNat / framesPerSecond)}/" ++
    s!"{minutes (frameCount.toNat / framesPerSecond)}"

def wallTime (seconds : Nat) : String :=
  s!"{seconds / 3600}:{twoDigits (seconds / 60 % 60)}:{twoDigits (seconds % 60)}"

/-- Whether a line is due once some frames are done: every `interval` frames, but
not at the end, where a final line is written anyway. -/
def isProgressDue (interval frameCount framesDone : UInt32) : Bool :=
  interval != 0 && framesDone % interval == 0 && framesDone != frameCount

/-- The lines of progress for some reports.  Real time is not measured. -/
def progressLines (interval frameCount : UInt32) (reports : List Report) : List String :=
  (reports.filter fun report => isProgressDue interval frameCount report.framesDone).map
    fun report => elapsedLine 0 report.framesDone frameCount

/-- The first frame at which two playbacks differ, as far as both go. -/
def firstDifference? (left right : List Report) : Option UInt32 :=
  ((left.zip right).find? fun (a, b) => a.frame != b.frame || a.checksum != b.checksum).map
    fun (a, _) => a.frame

end MatchTape.Playback
