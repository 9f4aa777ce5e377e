import Mathlib.Algebra.GroupWithZero.Nat
import MatchTape.Screening.Pool

/-!
# Rounds of a pool

A round polls the jobs of a pool, takes the front ones that are done away and starts jobs
for which there is room.  Starting jobs only moves them from those to come to those that are
held, so a round changes the jobs that are left by polls and reports alone.  If no worker
runs forever, every round leaves less to do, and the rounds come to an end before the number
that is reckoned beforehand.
-/

namespace MatchTape.Screening

variable {σ : Type} {launcher : Launcher σ}

def launches (launcher : Launcher σ) : List String → σ → List (Except String Worker)
  | [], _ => []
  | source :: sources, state =>
      (launcher source state).1 :: launches launcher sources (launcher source state).2

def stateAfter (launcher : Launcher σ) (sources : List String) (state : σ) : σ :=
  sources.foldl (fun state source => (launcher source state).2) state

def freshJobs (launcher : Launcher σ) (sources : List String) (state : σ) : List Job :=
  List.zipWith Job.ofLaunch sources (launches launcher sources state)

/-! ## Jobs -/

namespace Job

def outcome (job : Job) : String × Int :=
  match job.phase with
  | .running worker => (worker.output, worker.exitCode)
  | .done output exitCode => (output, exitCode)

/-- The job does not run forever. -/
def Ends (job : Job) : Prop :=
  ∀ worker, job.phase = .running worker → worker.polls ≠ none

def cost (job : Job) : Nat :=
  match job.phase with
  | .running worker => worker.polls.getD 0 + 1
  | .done _ _ => 1

theorem outcome_poll (job : Job) : job.poll.outcome = job.outcome := by
  obtain ⟨source, phase⟩ := job
  cases phase with
  | done => rfl
  | running worker =>
      obtain ⟨polls, output, exitCode⟩ := worker
      match polls with
      | none | some 0 | some (_ + 1) => rfl

theorem Ends.poll {job : Job} (ends : job.Ends) : job.poll.Ends := by
  obtain ⟨source, phase⟩ := job
  cases phase with
  | done => exact ends
  | running worker =>
      obtain ⟨polls, output, exitCode⟩ := worker
      match polls with
      | none => exact ends
      | some 0 => exact fun _ running => nomatch running
      | some (_ + 1) =>
          rintro _ running
          cases running
          exact Option.some_ne_none _

theorem cost_pos (job : Job) : 0 < job.cost := by
  unfold cost
  split <;> exact Nat.succ_pos _

theorem cost_poll_le (job : Job) : job.poll.cost ≤ job.cost := by
  obtain ⟨source, phase⟩ := job
  cases phase with
  | done => exact Nat.le_refl _
  | running worker =>
      obtain ⟨polls, output, exitCode⟩ := worker
      match polls with
      | none | some 0 => exact Nat.le_refl _
      | some (_ + 1) => exact Nat.le_succ _

/-- A poll that finds the worker running brings the job nearer to its end. -/
theorem cost_poll_lt {job : Job} (ends : job.Ends) (running : job.poll.isRunning = true) :
    job.poll.cost < job.cost := by
  obtain ⟨source, phase⟩ := job
  cases phase with
  | done => exact nomatch running
  | running worker =>
      obtain ⟨polls, output, exitCode⟩ := worker
      match polls with
      | none => exact absurd rfl (ends _ rfl)
      | some 0 => exact nomatch running
      | some (_ + 1) => exact Nat.lt_succ_self _

/-- What polls and reports leave of some jobs. -/
def left (jobs : List Job) : List Job :=
  (jobs.map poll).dropWhile fun job => !job.isRunning

theorem mem_left {jobs : List Job} {job : Job} (member : job ∈ left jobs) :
    ∃ earlier ∈ jobs, earlier.poll = job :=
  List.mem_map.mp ((List.dropWhile_sublist _).mem member)

theorem left_cons (job : Job) (jobs : List Job) :
    left (job :: jobs) =
      if job.poll.isRunning then job.poll :: jobs.map poll else left jobs := by
  rw [left, List.map_cons, List.dropWhile_cons]
  cases job.poll.isRunning <;> rfl

theorem cost_map_poll_le (jobs : List Job) :
    ((jobs.map poll).map cost).sum ≤ (jobs.map cost).sum := by
  induction jobs with
  | nil => exact Nat.le_refl 0
  | cons job jobs ih => exact Nat.add_le_add job.cost_poll_le ih

theorem cost_left_le (jobs : List Job) : ((left jobs).map cost).sum ≤ (jobs.map cost).sum := by
  induction jobs with
  | nil => exact Nat.le_refl 0
  | cons job jobs ih =>
      rw [left_cons]
      split
      · exact cost_map_poll_le (job :: jobs)
      · exact Nat.le_add_left_of_le ih

/-- The front job comes nearer to its end or is reported. -/
theorem cost_left_lt {jobs : List Job} (ends : ∀ job ∈ jobs, job.Ends) (busy : jobs ≠ []) :
    ((left jobs).map cost).sum < (jobs.map cost).sum := by
  cases jobs with
  | nil => exact absurd rfl busy
  | cons job jobs =>
      rw [left_cons]
      split
      · next running =>
          exact Nat.add_lt_add_of_lt_of_le (cost_poll_lt (ends job List.mem_cons_self) running)
            (cost_map_poll_le jobs)
      · have front := job.cost_pos
        have others := cost_left_le jobs
        rw [List.map_cons, List.sum_cons]
        omega

end Job

/-! ## Steps of a round -/

namespace Pool

/-- All jobs that a pool has not reported: those that it holds, then those that it is going to
start. -/
def fleet (launcher : Launcher σ) (pool : Pool σ) : List Job :=
  pool.jobs ++ freshJobs launcher pool.waiting pool.state

theorem reportFront_eq (pool : Pool σ) (jobs : List Job) :
    let after := pool.reportFront jobs
    after = { pool with
      jobs := jobs.dropWhile fun job => !job.isRunning
      reported := after.reported
      errors := after.errors
      text := after.text } := by
  induction jobs generalizing pool with
  | nil => rfl
  | cons job jobs ih =>
      obtain ⟨source, phase⟩ := job
      cases phase with
      | running worker => rfl
      | done output exitCode => exact ih _

def launch (launcher : Launcher σ) (source : String) (pool : Pool σ) : Pool σ :=
  { pool with
    jobs := pool.jobs ++ [Job.ofLaunch source (launcher source pool.state).1]
    events := pool.events ++ [.launched source]
    state := (launcher source pool.state).2 }

theorem launchWaiting_cons (pool : Pool σ) (source : String) (waiting : List String) :
    pool.launchWaiting launcher (source :: waiting) =
      if pool.running < pool.limit then
        (pool.launch launcher source).launchWaiting launcher waiting
      else { pool with waiting := source :: waiting } := by
  rw [launchWaiting]
  rfl

/-- What is kept when a job is started for which there is room is kept by starting jobs. -/
theorem launchWaiting_induction {motive : Pool σ → Prop}
    (kept : ∀ (pool : Pool σ) (source : String) (waiting : List String),
      pool.running < pool.limit → motive { pool with waiting := source :: waiting } →
        motive { pool.launch launcher source with waiting })
    {pool : Pool σ} {waiting : List String} (start : motive { pool with waiting }) :
    motive (pool.launchWaiting launcher waiting) := by
  induction waiting generalizing pool with
  | nil => exact start
  | cons source waiting ih =>
      rw [launchWaiting_cons]
      split
      · next room => exact ih (kept pool source waiting room start)
      · exact start

/-- Starting jobs moves them from those to come to those that are held. -/
theorem fleet_launchWaiting (pool : Pool σ) (waiting : List String) :
    (pool.launchWaiting launcher waiting).fleet launcher =
      pool.jobs ++ freshJobs launcher waiting pool.state := by
  refine launchWaiting_induction (motive := fun after => after.fleet launcher =
    pool.jobs ++ freshJobs launcher waiting pool.state) (fun after source others _ same => ?_) rfl
  rw [← same, fleet, launch, List.append_assoc]
  rfl

theorem launchWaiting_eq (pool : Pool σ) (waiting : List String) :
    let after := pool.launchWaiting launcher waiting
    after = { pool with
      waiting := after.waiting
      jobs := after.jobs
      events := after.events
      state := after.state } := by
  induction waiting generalizing pool with
  | nil => rfl
  | cons source waiting ih =>
      rw [launchWaiting_cons]
      split
      · exact ih _
      · rfl

/-- Jobs are started until none is to come or no room is left. -/
theorem full_launchWaiting (pool : Pool σ) (waiting : List String) :
    let after := pool.launchWaiting launcher waiting
    after.waiting = [] ∨ after.limit ≤ after.running := by
  induction waiting generalizing pool with
  | nil => exact .inl rfl
  | cons source waiting ih =>
      rw [launchWaiting_cons]
      split
      · exact ih _
      · next full => exact .inr (Nat.le_of_not_lt full)

/-- A round changes the jobs that are left by polls and reports alone. -/
theorem fleet_round (launcher : Launcher σ) (pool : Pool σ) :
    (pool.round launcher).fleet launcher =
      Job.left pool.jobs ++ freshJobs launcher pool.waiting pool.state := by
  rw [round, fleet_launchWaiting, reportFront_eq]
  rfl

theorem limit_round (launcher : Launcher σ) (pool : Pool σ) :
    (pool.round launcher).limit = pool.limit := by
  rw [round, launchWaiting_eq, reportFront_eq]
  rfl

theorem full_round (launcher : Launcher σ) (pool : Pool σ) :
    (pool.round launcher).waiting = [] ∨
      (pool.round launcher).limit ≤ (pool.round launcher).running :=
  full_launchWaiting (pool.pollAll.reportFront pool.pollAll.jobs) _

/-! ## All rounds -/

/-- The rounds of a pool come to an end in another: no job is held behind the last round, and
some are behind each round before, between which the pool sleeps. -/
inductive Settles (launcher : Launcher σ) : Pool σ → Pool σ → Prop where
  | last {pool : Pool σ} (settled : (pool.round launcher).isSettled = true) :
      Settles launcher pool (pool.round launcher)
  | asleep {pool final : Pool σ} (busy : (pool.round launcher).isSettled = false)
      (later : Settles launcher (pool.round launcher) final) : Settles launcher pool final

/-- What a round keeps is kept by rounds. -/
theorem settle_induction {motive : Pool σ → Prop}
    (kept : ∀ pool, motive pool → motive (pool.round launcher)) {pool : Pool σ}
    (start : motive pool) (rounds : Nat) : motive (pool.settle launcher rounds) := by
  induction rounds generalizing pool with
  | zero => exact start
  | succ rounds ih =>
      rw [settle]
      split
      · exact kept pool start
      · exact ih (kept pool start)

theorem limit_settle (launcher : Launcher σ) (pool : Pool σ) (rounds : Nat) :
    (pool.settle launcher rounds).limit = pool.limit :=
  settle_induction (motive := fun after => after.limit = pool.limit)
    (fun after same => (limit_round launcher after).trans same) rfl rounds

theorem full_settle (launcher : Launcher σ) (pool : Pool σ) (rounds : Nat) :
    let after := pool.settle launcher (rounds + 1)
    after.waiting = [] ∨ after.limit ≤ after.running := by
  induction rounds generalizing pool with
  | zero =>
      rw [settle, settle, ite_self]
      exact full_round launcher pool
  | succ rounds ih =>
      rw [settle]
      split
      · exact full_round launcher pool
      · exact ih (pool.round launcher)

theorem settles_settle {pool : Pool σ} {rounds : Nat}
    (settled : (pool.settle launcher (rounds + 1)).isSettled = true) :
    Settles launcher pool (pool.settle launcher (rounds + 1)) := by
  induction rounds generalizing pool with
  | zero =>
      rw [settle, settle, ite_self] at settled ⊢
      exact .last settled
  | succ rounds ih =>
      rw [settle] at settled ⊢
      cases first : (pool.round launcher).isSettled with
      | true => exact .last first
      | false =>
          rw [first] at settled
          exact .asleep first (ih settled)

def cost (launcher : Launcher σ) (pool : Pool σ) : Nat :=
  ((pool.fleet launcher).map Job.cost).sum

/-- None of the jobs that are left runs forever. -/
def Ends (launcher : Launcher σ) (pool : Pool σ) : Prop :=
  ∀ job ∈ pool.fleet launcher, job.Ends

theorem Ends.round {pool : Pool σ} (ends : pool.Ends launcher) :
    (pool.round launcher).Ends launcher := by
  intro job member
  rw [fleet_round] at member
  rcases List.mem_append.mp member with held | fresh
  · obtain ⟨earlier, listed, rfl⟩ := Job.mem_left held
    exact (ends earlier (List.mem_append_left _ listed)).poll
  · exact ends job (List.mem_append_right _ fresh)

theorem cost_round_lt {pool : Pool σ} (ends : pool.Ends launcher) (busy : pool.jobs ≠ []) :
    (pool.round launcher).cost launcher < pool.cost launcher := by
  have less := Job.cost_left_lt (fun job listed => ends job (List.mem_append_left _ listed)) busy
  rw [cost, cost, fleet_round, fleet]
  simp only [List.map_append, List.sum_append]
  exact Nat.add_lt_add_right less _

theorem isSettled_settle {pool : Pool σ} {rounds : Nat} (ends : pool.Ends launcher)
    (busy : pool.jobs ≠ []) (enough : pool.cost launcher ≤ rounds) :
    (pool.settle launcher rounds).isSettled = true := by
  induction rounds generalizing pool with
  | zero => exact absurd (Nat.lt_of_lt_of_le (cost_round_lt ends busy) enough) (Nat.not_lt_zero _)
  | succ rounds ih =>
      rw [settle]
      cases settled : (pool.round launcher).isSettled with
      | true => exact settled
      | false =>
          have less := cost_round_lt ends busy
          exact ih ends.round (by simpa [isSettled] using settled) (by omega)

/-- The rounds that are reckoned beforehand are more than the jobs can take. -/
theorem cost_lt_enoughRounds (launcher : Launcher σ) (sources : List String) (state : σ) :
    ((freshJobs launcher sources state).map Job.cost).sum <
      enoughRounds launcher sources state := by
  induction sources generalizing state with
  | nil => exact Nat.one_pos
  | cons source sources ih =>
      have others := ih (launcher source state).2
      rw [freshJobs, launches, List.zipWith_cons_cons, List.map_cons, List.sum_cons, enoughRounds]
      rw [freshJobs] at others
      refine Nat.add_lt_add_of_le_of_lt ?_ others
      cases (launcher source state).1 with
      | ok worker => exact Nat.le_succ _
      | error reason => exact Nat.le_succ 1

theorem exists_enoughRounds (launcher : Launcher σ) (sources : List String) (state : σ) :
    ∃ rounds, enoughRounds launcher sources state = rounds + 1 :=
  Nat.exists_eq_add_one.mpr
    (Nat.lt_of_le_of_lt (Nat.zero_le _) (cost_lt_enoughRounds launcher sources state))

theorem waiting_dispatch {sources : List String} {limit : Nat} {state : σ}
    (settled : (dispatch launcher sources limit state).isSettled = true) :
    (dispatch launcher sources limit state).waiting = [] := by
  obtain ⟨rounds, reckoned⟩ := exists_enoughRounds launcher sources state
  rw [dispatch, reckoned] at settled ⊢
  rcases full_settle launcher (.begin sources limit state) rounds with drained | full
  · exact drained
  · rw [limit_settle, running, List.isEmpty_iff.mp settled] at full
    exact absurd full (Nat.not_le_of_lt (Nat.lt_of_lt_of_le Nat.one_pos (Nat.le_max_left 1 limit)))

/-- If no worker runs forever, the rounds of a new pool come to an end within the number that is
reckoned beforehand. -/
theorem dispatch_settled {sources : List String} {state : σ} (limit : Nat)
    (ends : ∀ job ∈ freshJobs launcher sources state, job.Ends) :
    (dispatch launcher sources limit state).isSettled = true ∧
      Settles launcher (.begin sources limit state) (dispatch launcher sources limit state) := by
  obtain ⟨rounds, reckoned⟩ := exists_enoughRounds launcher sources state
  have enough := cost_lt_enoughRounds launcher sources state
  rw [reckoned] at enough
  have start : (begin sources limit state).Ends launcher := ends
  have settled : ((begin sources limit state).settle launcher (rounds + 1)).isSettled = true := by
    -- A new pool holds no job yet, so its first round need not leave less to do.
    rw [settle]
    cases first : ((begin sources limit state).round launcher).isSettled with
    | true => exact first
    | false =>
        refine isSettled_settle start.round (by simpa [isSettled] using first) ?_
        rw [cost, fleet_round]
        exact Nat.le_of_lt_succ enough
  rw [dispatch, reckoned]
  exact ⟨settled, settles_settle settled⟩

end Pool

end MatchTape.Screening
