import MatchTape.Screening.Options

/-!
# Playing recordings in workers

Every recording gets a worker of its own, and no more than a given number of
workers run at a time.  The pool looks after its workers in rounds: it polls all
of them, reports those in front that are done, and starts new ones as long as
there is room.  Reports keep the order of the recordings, whichever worker is
done first.
-/

namespace MatchTape.Screening

/-- How a worker behaves: how many polls find it running, or that it never ends,
and what it leaves when it is done. -/
structure Worker where
  polls : Option Nat
  output : String
  exitCode : Int
  deriving DecidableEq, Repr, Inhabited

/-- Starting a worker for a recording gives a worker, or the reason why there is none. -/
abbrev Launcher (σ : Type) := String → σ → Except String Worker × σ

inductive Phase where
  | running (worker : Worker)
  | done (output : String) (exitCode : Int)
  deriving DecidableEq, Repr

structure Job where
  source : String
  phase : Phase
  deriving DecidableEq, Repr

/-- What can be seen of a pool from outside. -/
inductive Event where
  | launched (source : String)
  | finished (source : String)
  deriving DecidableEq, Repr

structure Pool (σ : Type) where
  total : Nat
  limit : Nat
  /-- Recordings for which no worker has been started. -/
  waiting : List String
  /-- Jobs that have been started and are not yet reported, in order. -/
  jobs : List Job := []
  reported : Nat := 0
  errors : Nat := 0
  text : String := ""
  events : List Event := []
  state : σ

namespace Job

def isRunning (job : Job) : Bool :=
  match job.phase with
  | .running _ => true
  | .done _ _ => false

def poll (job : Job) : Job :=
  match job.phase with
  | .done _ _ => job
  | .running worker =>
      match worker.polls with
      | none => job
      | some 0 => { job with phase := .done worker.output worker.exitCode }
      | some (polls + 1) =>
          { job with phase := .running { worker with polls := some polls } }

def finishes (job : Job) : Bool :=
  job.isRunning && !job.poll.isRunning

def ofLaunch (source : String) : Except String Worker → Job
  | .ok worker => ⟨source, .running worker⟩
  | .error reason => ⟨source, .done (line (Failure.cannotStart source reason).message) 1⟩

end Job

namespace Pool

/-- A pool before its first round.  There is room for at least one worker. -/
def begin {σ : Type} (sources : List String) (limit : Nat) (state : σ) : Pool σ where
  total := sources.length
  limit := max 1 limit
  waiting := sources
  state := state

def running {σ : Type} (pool : Pool σ) : Nat :=
  pool.jobs.countP Job.isRunning

def pollAll {σ : Type} (pool : Pool σ) : Pool σ :=
  { pool with
    jobs := pool.jobs.map Job.poll
    events := pool.events ++
      (pool.jobs.filter Job.finishes).map fun job => .finished job.source }

/-- What is reported of a job: its number, its output on lines of its own, and a
line more if it failed. -/
def jobText (number total : Nat) (output : String) (exitCode : Int) : String :=
  s!"{number}/{total} " ++ output ++
    (if output.isEmpty ∨ output.toList.getLast? = some '\n' then "" else "\n") ++
    (if exitCode = 0 then "" else line "Error!")

/-- Report the jobs in front that are done. -/
def reportFront {σ : Type} (pool : Pool σ) : List Job → Pool σ
  | [] => { pool with jobs := [] }
  | job :: jobs =>
      match job.phase with
      | .running _ => { pool with jobs := job :: jobs }
      | .done output exitCode =>
          reportFront { pool with
            reported := pool.reported + 1
            errors := pool.errors + (if exitCode = 0 then 0 else 1)
            text := pool.text ++ jobText (pool.reported + 1) pool.total output exitCode } jobs

/-- Start workers for waiting recordings as long as there is room.  A worker that
cannot be started takes no room. -/
def launchWaiting {σ : Type} (launcher : Launcher σ) (pool : Pool σ) : List String → Pool σ
  | [] => { pool with waiting := [] }
  | source :: waiting =>
      if pool.running < pool.limit then
        let (launch, state) := launcher source pool.state
        launchWaiting launcher { pool with
          jobs := pool.jobs ++ [Job.ofLaunch source launch]
          events := pool.events ++ [.launched source]
          state } waiting
      else
        { pool with waiting := source :: waiting }

/-- One round of looking after the workers. -/
def round {σ : Type} (launcher : Launcher σ) (pool : Pool σ) : Pool σ :=
  let pool := pool.pollAll
  let pool := pool.reportFront pool.jobs
  pool.launchWaiting launcher pool.waiting

def isSettled {σ : Type} (pool : Pool σ) : Bool :=
  pool.jobs.isEmpty

def settle {σ : Type} (launcher : Launcher σ) : Nat → Pool σ → Pool σ
  | 0, pool => pool
  | rounds + 1, pool =>
      let pool := pool.round launcher
      if pool.isSettled then pool else settle launcher rounds pool

/-- How many rounds are enough for all recordings, if every worker comes to an end. -/
def enoughRounds {σ : Type} (launcher : Launcher σ) : List String → σ → Nat
  | [], _ => 1
  | source :: sources, state =>
      let (launch, state) := launcher source state
      let polls := match launch with
        | .ok worker => worker.polls.getD 0
        | .error _ => 0
      polls + 2 + enoughRounds launcher sources state

def dispatch {σ : Type} (launcher : Launcher σ) (sources : List String) (limit : Nat)
    (state : σ) : Pool σ :=
  settle launcher (enoughRounds launcher sources state) (.begin sources limit state)

def report {σ : Type} (pool : Pool σ) : String :=
  pool.text ++ closingLine pool.errors ++ line s!"Total Wall Time: {Playback.wallTime 0}"

def summary {σ : Type} (pool : Pool σ) : Summary where
  sources := pool.total
  errors := pool.errors

end Pool

end MatchTape.Screening
