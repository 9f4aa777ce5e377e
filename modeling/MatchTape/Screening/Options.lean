import MatchTape.Playback.Session

/-!
# How recordings are screened

The settings of a screening and what it amounts to in the end.
-/

namespace MatchTape.Screening

open Playback

structure Options where
  /-- The folder that names of recordings are seen from. -/
  recordings : String := "Replays"
  checkpoints : String := "Save"
  /-- Frames between two lines of progress: ten minutes of game time. -/
  progressInterval : UInt32 := 18000
  /-- Time between two looks at the workers, in milliseconds. -/
  pollInterval : Nat := 100
  saveFrame : Option UInt32 := none
  saveName : Option String := none
  stopRaised : Bool := false
  deriving DecidableEq, Repr, Inhabited

/-- The checkpoint to be saved: frame and name must both be given, the frame must
not be zero and the name not empty. -/
def Options.request? (options : Options) : Option SaveRequest :=
  match options.saveFrame, options.saveName with
  | some frame, some name =>
      if frame = 0 ∨ name.isEmpty then none else some { frame, name }
  | _, _ => none

structure Summary where
  sources : Nat
  errors : Nat
  deriving DecidableEq, Repr, Inhabited

def Summary.exitCode (summary : Summary) : Nat :=
  if summary.errors = 0 then 0 else 1

def line (text : String) : String :=
  text ++ "\n"

def lines (texts : List String) : String :=
  String.join (texts.map line)

def closingLine (errors : Nat) : String :=
  line s!"Simulation of all replays completed. Errors occurred: {errors}"

end MatchTape.Screening
