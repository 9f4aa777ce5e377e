import MatchTape.Proofs.Screening.Rounds

/-!
# What a pool reports

What becomes of a recording is settled when its worker is started: the output and the exit
code that the worker leaves, or the reason why there is no worker.  A pool tells all of it in
the order of the recordings, however long the workers run and however many of them run at a
time.
-/

namespace MatchTape.Screening

variable {σ : Type} {launcher : Launcher σ} {sources : List String} {state : σ}

def launchOutcome (source : String) : Except String Worker → String × Int
  | .ok worker => (worker.output, worker.exitCode)
  | .error reason => (s!"cannot start worker for {source}: {reason}\n", 1)

def outcomes (launcher : Launcher σ) (sources : List String) (state : σ) : List (String × Int) :=
  List.zipWith launchOutcome sources (launches launcher sources state)

/-- What is told of recordings for their outcomes: the number of each and its output, on lines
of their own, and a line more for an exit code other than zero. -/
def told (total : Nat) (outcomes : List (String × Int)) : String :=
  String.join ((outcomes.zipIdx 1).map fun ((output, exitCode), number) =>
    s!"{number}/{total} " ++ output ++
      (if output ≠ "" ∧ output.toList.getLast? ≠ some '\n' then "\n" else "") ++
      (if exitCode ≠ 0 then "Error!\n" else ""))

def failures (outcomes : List (String × Int)) : Nat :=
  outcomes.countP fun (_, exitCode) => exitCode ≠ 0

/-- The recordings for which the start of a worker was tried, in order. -/
def startedIn (events : List Event) : List String :=
  events.filterMap fun
    | .launched source => some source
    | .finished _ => none

theorem length_launches (launcher : Launcher σ) (sources : List String) (state : σ) :
    (launches launcher sources state).length = sources.length := by
  induction sources generalizing state with
  | nil => rfl
  | cons source sources ih => exact congrArg (· + 1) (ih _)

theorem map_outcome_freshJobs (launcher : Launcher σ) (sources : List String) (state : σ) :
    (freshJobs launcher sources state).map Job.outcome = outcomes launcher sources state := by
  rw [freshJobs, List.map_zipWith, outcomes]
  congr 1
  funext source launch
  cases launch with
  | ok worker => rfl
  | error reason => rfl

theorem outcomes_eq_map {printed : String → String × Int}
    (still : ∀ source ∈ sources, ∃ polls,
      launcher source state = (.ok ⟨some polls, (printed source).1, (printed source).2⟩, state)) :
    outcomes launcher sources state = sources.map printed ∧
      ∀ worker, .ok worker ∈ launches launcher sources state → worker.polls ≠ none := by
  induction sources with
  | nil => exact ⟨rfl, fun _ => nofun⟩
  | cons source sources ih =>
      obtain ⟨⟨polls, launched⟩, others⟩ := List.forall_mem_cons.mp still
      obtain ⟨rest, finite⟩ := ih others
      rw [outcomes, launches, launched]
      constructor
      · exact congrArg (printed source :: ·) rest
      · intro worker member
        rcases List.mem_cons.mp member with first | later
        · cases first
          exact Option.some_ne_none polls
        · exact finite worker later

theorem jobText_eq (number total : Nat) (output : String) (exitCode : Int) :
    Pool.jobText number total output exitCode =
      s!"{number}/{total} " ++ output ++
        (if output ≠ "" ∧ output.toList.getLast? ≠ some '\n' then "\n" else "") ++
        (if exitCode ≠ 0 then "Error!\n" else "") := by
  have newline : (if output.isEmpty ∨ output.toList.getLast? = some '\n' then "" else "\n") =
      if output ≠ "" ∧ output.toList.getLast? ≠ some '\n' then "\n" else "" := by
    rw [← ite_not]
    simp only [not_or, String.isEmpty_iff, ne_eq]
  rw [Pool.jobText, newline, ← ite_not (exitCode = 0)]
  rfl

theorem told_concat (total : Nat) (past : List (String × Int)) (output : String)
    (exitCode : Int) :
    told total (past ++ [(output, exitCode)]) =
      told total past ++ Pool.jobText (past.length + 1) total output exitCode := by
  rw [told, List.zipIdx_append, List.map_append, String.join_append, Nat.add_comm, jobText_eq]
  simp [told, String.join]

theorem failures_concat (past : List (String × Int)) (output : String) (exitCode : Int) :
    failures (past ++ [(output, exitCode)]) = failures past + if exitCode = 0 then 0 else 1 := by
  rw [failures, List.countP_append, List.countP_singleton, ← failures]
  simp only [ne_eq, decide_not, Bool.not_eq_true', decide_eq_false_iff_not, ite_not]

theorem startedIn_append (past events : List Event) :
    startedIn (past ++ events) = startedIn past ++ startedIn events :=
  List.filterMap_append

theorem startedIn_finished (jobs : List Job) :
    startedIn (jobs.map fun job => .finished job.source) = [] := by
  rw [startedIn, List.filterMap_map, List.filterMap_eq_nil_iff]
  exact fun _ _ => rfl

namespace Pool

def tell (output : String) (exitCode : Int) (pool : Pool σ) : Pool σ :=
  { pool with
    reported := pool.reported + 1
    errors := pool.errors + (if exitCode = 0 then 0 else 1)
    text := pool.text ++ jobText (pool.reported + 1) pool.total output exitCode }

/-- A pool on its way through recordings: it has told some of their outcomes, and what it holds
and what is to come are the others. -/
structure Underway (launcher : Launcher σ) (sources : List String) (state : σ)
    (past : List (String × Int)) (pool : Pool σ) : Prop where
  total : pool.total = sources.length
  started : startedIn pool.events ++ pool.waiting = sources
  state_eq : stateAfter launcher pool.waiting pool.state = stateAfter launcher sources state
  outcomes_eq : past ++ (pool.fleet launcher).map Job.outcome = outcomes launcher sources state
  reported : pool.reported = past.length
  errors : pool.errors = failures past
  text : pool.text = told pool.total past

namespace Underway

variable {past : List (String × Int)} {pool : Pool σ}

theorem start (launcher : Launcher σ) (sources : List String) (limit : Nat) (state : σ) :
    Underway launcher sources state [] (.begin sources limit state) :=
  ⟨rfl, rfl, rfl, map_outcome_freshJobs launcher sources state, rfl, rfl, rfl⟩

theorem pollAll (underway : Underway launcher sources state past pool) :
    Underway launcher sources state past pool.pollAll := by
  refine { underway with started := ?_, outcomes_eq := ?_ }
  · rw [Pool.pollAll, startedIn_append, startedIn_finished, List.append_nil]
    exact underway.started
  · rw [← underway.outcomes_eq]
    simp only [fleet, Pool.pollAll, List.map_append, List.map_map]
    congr 3
    exact funext Job.outcome_poll

/-- Telling of the front job adds its outcome to those that have been told. -/
theorem tell {source output : String} {exitCode : Int} {jobs : List Job}
    (underway : Underway launcher sources state past
      { pool with jobs := ⟨source, .done output exitCode⟩ :: jobs }) :
    Underway launcher sources state (past ++ [(output, exitCode)])
      { pool.tell output exitCode with jobs } where
  total := underway.total
  started := underway.started
  state_eq := underway.state_eq
  outcomes_eq := by
    rw [← underway.outcomes_eq, List.append_assoc]
    rfl
  reported := by
    rw [List.length_append]
    exact congrArg (· + 1) underway.reported
  errors := by
    rw [failures_concat]
    exact congrArg (· + if exitCode = 0 then 0 else 1) underway.errors
  text := by
    rw [told_concat, ← underway.reported]
    exact congrArg (· ++ jobText (pool.reported + 1) pool.total output exitCode) underway.text

theorem reportFront {jobs : List Job}
    (underway : Underway launcher sources state past { pool with jobs }) :
    ∃ more, Underway launcher sources state (past ++ more) (pool.reportFront jobs) := by
  induction jobs generalizing pool past with
  | nil => exact ⟨[], (List.append_nil past).symm ▸ underway⟩
  | cons job jobs ih =>
      obtain ⟨source, phase⟩ := job
      cases phase with
      | running worker => exact ⟨[], (List.append_nil past).symm ▸ underway⟩
      | done output exitCode =>
          obtain ⟨more, later⟩ := @ih _ (pool.tell output exitCode) underway.tell
          rw [List.append_assoc] at later
          exact ⟨(output, exitCode) :: more, later⟩

/-- A job that is started was to come before. -/
theorem launch {source : String} {waiting : List String}
    (underway : Underway launcher sources state past { pool with waiting := source :: waiting }) :
    Underway launcher sources state past { pool.launch launcher source with waiting } := by
  refine { underway with started := ?_, outcomes_eq := ?_ }
  · rw [Pool.launch, startedIn_append, List.append_assoc]
    exact underway.started
  · rw [← underway.outcomes_eq, fleet, fleet, Pool.launch, List.append_assoc]
    rfl

theorem launchWaiting {waiting : List String}
    (underway : Underway launcher sources state past { pool with waiting }) :
    Underway launcher sources state past (pool.launchWaiting launcher waiting) :=
  launchWaiting_induction (motive := Underway launcher sources state past)
    (fun _ _ _ _ => launch) underway

theorem round (underway : Underway launcher sources state past pool) :
    ∃ more, Underway launcher sources state (past ++ more) (pool.round launcher) := by
  obtain ⟨more, reported⟩ : ∃ more, Underway launcher sources state (past ++ more)
      (pool.pollAll.reportFront pool.pollAll.jobs) := reportFront underway.pollAll
  exact ⟨more, reported.launchWaiting⟩

end Underway

theorem exists_underway_settle (launcher : Launcher σ) (sources : List String) (limit : Nat)
    (state : σ) (rounds : Nat) :
    ∃ past, Underway launcher sources state past
      (settle launcher rounds (.begin sources limit state)) :=
  settle_induction (motive := fun pool => ∃ past, Underway launcher sources state past pool)
    (fun _ ⟨past, underway⟩ => have ⟨more, later⟩ := underway.round; ⟨past ++ more, later⟩)
    ⟨[], .start launcher sources limit state⟩ rounds

theorem underway_dispatch (limit : Nat)
    (ends : ∀ job ∈ freshJobs launcher sources state, job.Ends) :
    let pool := dispatch launcher sources limit state
    pool.waiting = [] ∧ Underway launcher sources state (outcomes launcher sources state) pool := by
  intro pool
  obtain ⟨settled, -⟩ := dispatch_settled limit ends
  have waiting : pool.waiting = [] := waiting_dispatch settled
  have jobs : pool.jobs = [] := List.isEmpty_iff.mp settled
  obtain ⟨past, underway⟩ := exists_underway_settle launcher sources limit state
    (enoughRounds launcher sources state)
  change Underway launcher sources state past pool at underway
  have whole : past = outcomes launcher sources state := by
    rw [← underway.outcomes_eq, fleet, jobs, waiting]
    exact (List.append_nil past).symm
  exact ⟨waiting, whole ▸ underway⟩

/-- The report of a pool is made of the outcomes alone. -/
theorem report_dispatch (limit : Nat)
    (ends : ∀ job ∈ freshJobs launcher sources state, job.Ends) :
    (dispatch launcher sources limit state).report =
      told sources.length (outcomes launcher sources state) ++
        closingLine (failures (outcomes launcher sources state)) ++
        line s!"Total Wall Time: {Playback.wallTime 0}" := by
  obtain ⟨-, underway⟩ := underway_dispatch limit ends
  rw [report, underway.text, underway.errors, underway.total]

theorem summary_dispatch (limit : Nat)
    (ends : ∀ job ∈ freshJobs launcher sources state, job.Ends) :
    (dispatch launcher sources limit state).summary =
      ⟨sources.length, failures (outcomes launcher sources state)⟩ := by
  obtain ⟨-, underway⟩ := underway_dispatch limit ends
  rw [summary, underway.total, underway.errors]

theorem ends_freshJobs
    (finite : ∀ worker, .ok worker ∈ launches launcher sources state → worker.polls ≠ none) :
    ∀ job ∈ freshJobs launcher sources state, job.Ends := by
  intro job member worker running
  rw [freshJobs, ← List.map_uncurry_zip_eq_zipWith] at member
  obtain ⟨⟨source, launch⟩, listed, rfl⟩ := List.mem_map.mp member
  cases launch with
  | ok _ =>
      cases running
      exact finite worker (List.of_mem_zip listed).2
  | error reason => cases running

/-- If every worker that is started comes to an end, the rounds of a pool come to an end, behind
which every recording has been started once and told of once, in order.  The report consists of
the outcomes in order and of two lines that close it, so neither the number of polls nor the
limit makes a difference. -/
theorem dispatch_tells (limit : Nat)
    (finite : ∀ worker, .ok worker ∈ launches launcher sources state → worker.polls ≠ none) :
    let pool := dispatch launcher sources limit state
    let all := outcomes launcher sources state
    Settles launcher (.begin sources limit state) pool ∧
      startedIn pool.events = sources ∧ pool.state = stateAfter launcher sources state ∧
      pool.reported = sources.length ∧
      pool.report = told sources.length all ++ closingLine (failures all) ++
        line s!"Total Wall Time: {Playback.wallTime 0}" ∧
      pool.summary = ⟨sources.length, failures all⟩ ∧
      ∀ {τ : Type} (other : Launcher τ) (otherState : τ) (otherLimit : Nat),
        (∀ worker, .ok worker ∈ launches other sources otherState → worker.polls ≠ none) →
        outcomes other sources otherState = all →
          (dispatch other sources otherLimit otherState).report = pool.report := by
  intro pool all
  have ends := ends_freshJobs finite
  obtain ⟨-, settles⟩ := dispatch_settled limit ends
  obtain ⟨waiting, underway⟩ := underway_dispatch limit ends
  have report := report_dispatch limit ends
  refine ⟨settles, ?_, ?_, ?_, report, ?_, fun other otherState otherLimit others same => ?_⟩
  · have started := underway.started
    rwa [waiting, List.append_nil] at started
  · have state_eq := underway.state_eq
    rwa [waiting] at state_eq
  · rw [underway.reported, outcomes, List.length_zipWith, length_launches, Nat.min_self]
  · exact summary_dispatch limit ends
  · rw [report_dispatch otherLimit (ends_freshJobs others), same, ← report]

def lettersLauncher : Launcher Unit := fun source state =>
  (if source = "missing" then .error "no such program"
    else .ok ⟨some source.length, s!"played {source}", if source = "bad" then 1 else 0⟩, state)

/-- The first worker runs longer than the others, but is told of first. -/
theorem dispatch_tells_three :
    let sources := ["long", "bad", "missing"]
    let pool := dispatch lettersLauncher sources 2 ()
    (∀ worker, .ok worker ∈ launches lettersLauncher sources () → worker.polls ≠ none) ∧
      startedIn pool.events = sources ∧
      pool.report = "1/3 played long\n2/3 played bad\nError!\n" ++
        "3/3 cannot start worker for missing: no such program\nError!\n" ++
        "Simulation of all replays completed. Errors occurred: 2\nTotal Wall Time: 0:00:00\n" := by
  intro sources pool
  have finite : ∀ worker, .ok worker ∈ launches lettersLauncher sources () →
      worker.polls ≠ none := by
    intro worker member
    simp only [sources, launches, lettersLauncher, List.mem_cons, List.not_mem_nil] at member
    rcases member with first | second | third | beyond
    · cases first
      exact Option.some_ne_none _
    · cases second
      exact Option.some_ne_none _
    · cases third
    · exact beyond.elim
  obtain ⟨-, started, -, -, report, -⟩ := dispatch_tells 2 finite
  exact ⟨finite, started, report.trans (by decide +kernel)⟩

end Pool

end MatchTape.Screening
