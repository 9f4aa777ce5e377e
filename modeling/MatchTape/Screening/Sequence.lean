import MatchTape.Screening.Options

/-!
# Playing recordings one after another

Each recording is opened, played and reported on its own; an error in one does
not keep the next from being played.
-/

namespace MatchTape.Screening

open Playback World

/-- Where recordings are read from and checkpoints are saved to. -/
structure Desk (σ : Type) where
  read : σ → String → Except Files.Fault (List UInt8)
  store : Store σ

/-- Recordings are files of a tree, and checkpoints are kept in one of its folders. -/
def Desk.ofTree (checkpoints : String) : Desk Files.Tree where
  read tree path := tree.read path
  store := .inFolder checkpoints

structure Screened where
  text : String
  isError : Bool
  /-- Whether the whole screening comes to an end with this recording. -/
  ends : Bool := false
  deriving DecidableEq, Repr

/-- The arena and the desk's state between two recordings. -/
structure Standing (σ : Type) where
  arena : Arena
  shelf : σ

/-- Open a recording for playing from its first frame. -/
def openSession {σ : Type} (desk : Desk σ) (options : Options) (source : String) (shelf : σ) :
    Except Failure Session :=
  match desk.read shelf (Files.Path.join options.recordings source) with
  | .error fault => .error (.files fault)
  | .ok contents =>
      match Tape.ofBytes source contents with
      | .error failure => .error failure
      | .ok tape => Session.start tape

def prepare (options : Options) (session : Session) : Session :=
  { session with request := options.request?, stopRaised := options.stopRaised }

def openingLine (source : String) : String :=
  line s!"Simulating Replay \"{source}\""

/-- What is reported of a session after it was run: progress, then the final line. -/
def sessionText (options : Options) (session : Session) : String :=
  lines (progressLines options.progressInterval session.frameCount session.reports.toList) ++
    line (elapsedLine 0 session.frame session.frameCount)

def countsAsError : Except Failure Verdict → Bool
  | .ok verdict => verdict.isError
  | .error _ => true

def wasStopped : Except Failure Verdict → Bool
  | .ok (.stopped _) => true
  | _ => false

def screen {σ : Type} (desk : Desk σ) (options : Options) (source : String)
    (standing : Standing σ) : Screened × Standing σ :=
  match openSession desk options source standing.shelf with
  | .error _ =>
      ({ text := openingLine source ++ line "Cannot open replay", isError := true }, standing)
  | .ok session =>
      let (result, session, shelf) := (prepare options session).run desk.store standing.shelf
      ({ text := openingLine source ++ sessionText options session
         isError := countsAsError result
         ends := wasStopped result },
        { arena := session.arena, shelf })

/-- Play recordings in order until one of them ends the screening. -/
def screenAll {σ : Type} (desk : Desk σ) (options : Options) :
    List String → Standing σ → List Screened × Standing σ
  | [], standing => ([], standing)
  | source :: sources, standing =>
      let (first, standing) := screen desk options source standing
      if first.ends then ([first], standing)
      else
        let (others, standing) := screenAll desk options sources standing
        (first :: others, standing)

def closing (sources errors : Nat) : String :=
  if 1 < sources then closingLine errors ++ line s!"Total Time: {wallTime 0}" else ""

structure Outcome where
  text : String
  summary : Summary
  deriving DecidableEq, Repr

def inSequence {σ : Type} (desk : Desk σ) (options : Options) (sources : List String)
    (standing : Standing σ) : Outcome × Standing σ :=
  let (screened, standing) := screenAll desk options sources standing
  let errors := screened.countP Screened.isError
  ({ text := String.join (screened.map Screened.text) ++ closing sources.length errors
     summary := { sources := sources.length, errors } },
    standing)

end MatchTape.Screening
