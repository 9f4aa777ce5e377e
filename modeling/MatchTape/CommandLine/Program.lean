import MatchTape.CommandLine.Arguments
import MatchTape.Exhibition
import MatchTape.Files.Writing
import MatchTape.Library.Expansion
import MatchTape.Screening.Continuation
import MatchTape.Screening.Pool

/-!
# The program

Everything the program does as one function: arguments and files in, exit code,
output and files out.  A worker is the program itself, run on a single recording.
-/

namespace MatchTape.CommandLine

open Files Library Screening World

structure Finished where
  code : Nat
  output : String
  errors : String := ""
  files : Tree

inductive Problem where
  | noNames
  | files (fault : Fault)
  | failure (failure : Failure)
  deriving DecidableEq, Repr

def Problem.message : Problem → String
  | noNames => "no replays given"
  | files fault => s!"io error: {fault.message}"
  | failure cause => cause.message

def Finished.ofProblem (problem : Problem) (files : Tree) : Finished where
  code := 1
  output := ""
  errors := line s!"error: {problem.message}"
  files := files

/-- Running the program as a worker with the given arguments. -/
abbrev Spawn := List String → Tree → Worker × Tree

def PlayRequest.options (request : PlayRequest) : Options where
  recordings := request.recordings
  checkpoints := request.checkpoints
  saveFrame := request.saveFrame
  saveName := request.saveName

def workerBase (options : Options) : List String :=
  ["--replay-dir", options.recordings, "--save-dir", options.checkpoints]

/-- The arguments of a worker.  The name stands behind a separator, so that it is
never read as a command or an option. -/
def workerArguments (base : List String) (source : String) : List String :=
  base ++ ["--", source]

/-- Workers that are runs of the program. -/
def launcher (spawn : Spawn) (base : List String) : Launcher Tree := fun source files =>
  let (worker, files) := spawn (workerArguments base source) files
  (.ok worker, files)

def resolve (options : Options) (names : List String) (files : Tree) : List String :=
  Expansion.expandAll options.recordings (Expansion.listTree files) names

def playInWorkers (launcher : Launcher Tree) (limit : Nat) (options : Options)
    (names : List String) (files : Tree) : Outcome × Tree :=
  let pool := Pool.dispatch launcher (resolve options names files) limit files
  (⟨pool.report, pool.summary⟩, pool.state)

def playInSequence (options : Options) (names : List String) (standing : Standing Tree) :
    Outcome × Standing Tree :=
  inSequence (.ofTree options.checkpoints) options (resolve options names standing.shelf) standing

def play (spawn : Spawn) (request : PlayRequest) (files : Tree) : Finished :=
  if request.names.isEmpty then .ofProblem .noNames files
  else
    let options := request.options
    match request.loadName with
    | some checkpoint =>
        let continuation := continueFrom (.ofTree options.checkpoints) options request.names
          checkpoint ⟨.empty, files⟩
        { code := continuation.code, output := continuation.text, files }
    | none =>
        match request.jobs.filter (0 < ·) with
        | some limit =>
            let (outcome, files) := playInWorkers (launcher spawn (workerBase options)) limit
              options request.names files
            { code := outcome.summary.exitCode, output := outcome.text, files }
        | none =>
            let (outcome, standing) := playInSequence options request.names ⟨.empty, files⟩
            { code := outcome.summary.exitCode, output := outcome.text, files := standing.shelf }

def record (request : RecordRequest) (files : Tree) : Finished :=
  let exhibition : Exhibition :=
    { map := request.map, seed := request.seed, players := request.players
      frames := request.frames, interval := request.interval }
  match exhibition.record with
  | .error failure => .ofProblem (.failure failure) files
  | .ok contents =>
      let path := Path.join request.recordings request.name
      match files.writeRecording path contents with
      | (.error fault, files) => .ofProblem (.files fault) files
      | (.ok (), files) =>
          { code := 0, output := line s!"Recorded {request.frames} frames to {path}", files }

def versionLine : String :=
  line s!"lockstep {Exhibition.build}"

def usageCode : Nat := 2

/-- Carry out arguments, with the given way to run workers. -/
def runWith (spawn : Spawn) (arguments : List String) (files : Tree) : Finished :=
  match parse arguments with
  | .error .usage => { code := usageCode, output := "", files }
  | .error .help => { code := 0, output := "", files }
  | .error .version => { code := 0, output := versionLine, files }
  | .ok (.play request) => play spawn request files
  | .ok (.record request) => record request files

/-- A finished run as a worker that was done at its first poll. -/
def Finished.toWorker (finished : Finished) : Worker × Tree :=
  ({ polls := some 0, output := finished.output, exitCode := finished.code }, finished.files)

def runAlone (arguments : List String) (files : Tree) : Finished :=
  runWith (fun _ files => ({ polls := some 0, output := "", exitCode := 1 }, files)) arguments files

/-- Carry out arguments.  Workers run alone: their arguments ask for no further workers. -/
def run (arguments : List String) (files : Tree) : Finished :=
  runWith (fun arguments files => (runAlone arguments files).toWorker) arguments files

end MatchTape.CommandLine
