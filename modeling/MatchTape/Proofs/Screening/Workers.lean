import MatchTape.Proofs.Screening.Reports

/-!
# How many workers run

The events of a pool say which workers were started and which were found done, so they say
how many run behind each of them.  There are never more than the limit, whatever starting
workers leads to and however long they run, and whenever the pool goes to sleep there are as
many, or no recording waits.
-/

namespace MatchTape.Screening

variable {σ : Type} {launcher : Launcher σ} {sources : List String} {state : σ}

def finishedIn (events : List Event) : List String :=
  events.filterMap fun
    | .launched _ => none
    | .finished source => some source

/-- How many workers run behind some events: those that were started, if there was a worker at
all, without those that were found done. -/
def alive (started : List (Except String Worker)) (events : List Event) : Int :=
  (started.take (startedIn events).length).countP Except.isOk - (finishedIn events).length

theorem finishedIn_append (past events : List Event) :
    finishedIn (past ++ events) = finishedIn past ++ finishedIn events :=
  List.filterMap_append

theorem finishedIn_finished (jobs : List Job) :
    finishedIn (jobs.map fun job => .finished job.source) = jobs.map Job.source := by
  induction jobs with
  | nil => rfl
  | cons job jobs ih => exact congrArg (job.source :: ·) ih

/-- Polls let the number of running workers go down. -/
theorem alive_append (started : List (Except String Worker)) (past : List Event)
    {polled : List Event} (only : startedIn polled = []) :
    alive started (past ++ polled) = alive started past - (finishedIn polled).length := by
  rw [alive, alive, startedIn_append, only, List.append_nil, finishedIn_append, List.length_append]
  omega

theorem alive_launched {started more : List (Except String Worker)} {launch : Except String Worker}
    {past : List Event} (next : started.drop (startedIn past).length = launch :: more)
    (source : String) :
    alive started (past ++ [.launched source]) =
      alive started past + if launch.isOk then 1 else 0 := by
  have found : started[(startedIn past).length]? = some launch := by
    rw [← List.head?_drop, next, List.head?_cons]
  have length : (startedIn (past ++ [.launched source])).length =
      (startedIn past).length + 1 := by
    rw [startedIn_append, List.length_append]
    rfl
  have finished : finishedIn (past ++ [.launched source]) = finishedIn past :=
    (finishedIn_append past _).trans (List.append_nil _)
  rw [alive, alive, length, finished, List.take_add_one, found, Option.toList_some,
    List.countP_append, List.countP_singleton]
  split <;> omega

theorem startedIn_of_prefix {past events : List Event} (earlier : past <+: events)
    (only : startedIn events = []) : startedIn past = [] := by
  obtain ⟨rest, rfl⟩ := earlier
  rw [startedIn_append] at only
  exact (List.append_eq_nil_iff.mp only).1

theorem isRunning_ofLaunch (source : String) (launch : Except String Worker) :
    (Job.ofLaunch source launch).isRunning = launch.isOk := by
  cases launch <;> rfl

/-- A worker that runs is found done by the next poll, or it runs on. -/
theorem Job.isRunning_poll (job : Job) :
    (if job.poll.isRunning then 1 else 0) + (if job.finishes then 1 else 0) =
      if job.isRunning then 1 else 0 := by
  obtain ⟨source, phase⟩ := job
  cases phase with
  | done => rfl
  | running worker =>
      obtain ⟨polls, output, exitCode⟩ := worker
      match polls with
      | none | some 0 | some (_ + 1) => rfl

/-- Of the workers that run, some are found done and the others run on. -/
theorem countP_isRunning_poll (jobs : List Job) :
    (jobs.map Job.poll).countP Job.isRunning + (jobs.filter Job.finishes).length =
      jobs.countP Job.isRunning := by
  rw [← List.countP_eq_length_filter]
  induction jobs with
  | nil => rfl
  | cons job jobs ih =>
      have one := job.isRunning_poll
      simp only [List.map_cons, List.countP_cons]
      omega

theorem countP_isRunning_dropWhile (jobs : List Job) :
    (jobs.dropWhile fun job => !job.isRunning).countP Job.isRunning =
      jobs.countP Job.isRunning := by
  induction jobs with
  | nil => rfl
  | cons job jobs ih =>
      rw [List.dropWhile_cons]
      cases running : job.isRunning with
      | true => rfl
      | false =>
          rw [List.countP_cons_of_neg (by simp [running])]
          exact ih

namespace Pool

/-- The workers of a pool that has come to some point: as many run as the events say, and at no
event have more run than the limit allows. -/
structure Staffed (launcher : Launcher σ) (sources : List String) (state : σ) (limit : Nat)
    (pool : Pool σ) : Prop where
  limit_eq : pool.limit = limit
  within : pool.running ≤ limit
  coming : (launches launcher sources state).drop (startedIn pool.events).length =
    launches launcher pool.waiting pool.state
  alive_eq : alive (launches launcher sources state) pool.events = pool.running
  bounded : ∀ past, past <+: pool.events → alive (launches launcher sources state) past ≤ limit

namespace Staffed

variable {limit : Nat} {pool : Pool σ}

theorem start (launcher : Launcher σ) (sources : List String) (limit : Nat) (state : σ) :
    Staffed launcher sources state (max 1 limit) (.begin sources limit state) where
  limit_eq := rfl
  within := Nat.zero_le _
  coming := rfl
  alive_eq := rfl
  bounded past earlier := by
    rw [List.prefix_nil.mp earlier]
    exact Int.natCast_nonneg _

theorem pollAll (staffed : Staffed launcher sources state limit pool) :
    Staffed launcher sources state limit pool.pollAll := by
  have running : pool.pollAll.running + (pool.jobs.filter Job.finishes).length = pool.running :=
    countP_isRunning_poll pool.jobs
  have only := startedIn_finished (pool.jobs.filter Job.finishes)
  have number := congrArg List.length (finishedIn_finished (pool.jobs.filter Job.finishes))
  rw [List.length_map] at number
  refine { staffed with within := ?_, coming := ?_, alive_eq := ?_, bounded := ?_ }
  · have within := staffed.within
    omega
  · rw [Pool.pollAll, startedIn_append, only, List.append_nil]
    exact staffed.coming
  · have alive_eq := staffed.alive_eq
    change alive _ (pool.events ++ _) = _
    rw [alive_append _ _ only, number]
    omega
  · intro past earlier
    rcases List.prefix_or_prefix_of_prefix earlier (List.prefix_append pool.events _) with
      inside | ⟨rest, rfl⟩
    · exact staffed.bounded past inside
    · -- Among the polls themselves the number of running workers only goes down.
      have only := startedIn_of_prefix ((List.prefix_append_right_inj _).mp earlier) only
      have before := staffed.bounded pool.events (List.prefix_refl _)
      rw [alive_append _ _ only]
      omega

theorem reportFront (staffed : Staffed launcher sources state limit pool) :
    Staffed launcher sources state limit (pool.reportFront pool.jobs) := by
  have running : ({ pool with jobs := pool.jobs.dropWhile fun job => !job.isRunning } :
      Pool σ).running = pool.running := countP_isRunning_dropWhile pool.jobs
  rw [reportFront_eq]
  exact { staffed with
    within := running ▸ staffed.within
    alive_eq := staffed.alive_eq.trans (congrArg Nat.cast running.symm) }

theorem launch {source : String} {waiting : List String}
    (staffed : Staffed launcher sources state limit { pool with waiting := source :: waiting })
    (room : pool.running < limit) :
    Staffed launcher sources state limit { pool.launch launcher source with waiting } := by
  have coming : (launches launcher sources state).drop (startedIn pool.events).length =
      (launcher source pool.state).1 :: launches launcher waiting (launcher source pool.state).2 :=
    staffed.coming
  have alive_eq : alive (launches launcher sources state) pool.events = pool.running :=
    staffed.alive_eq
  have running : (pool.launch launcher source).running =
      pool.running + if (launcher source pool.state).1.isOk then 1 else 0 := by
    rw [Pool.running, Pool.launch, List.countP_append, List.countP_singleton, isRunning_ofLaunch]
    rfl
  have now : alive (launches launcher sources state) (pool.events ++ [.launched source]) =
      (pool.launch launcher source).running := by
    rw [alive_launched coming, alive_eq, running]
    split <;> rfl
  have within : (pool.launch launcher source).running ≤ limit := by
    rw [running]
    split <;> omega
  refine { staffed with within, coming := ?_, alive_eq := now, bounded := fun past earlier => ?_ }
  · change List.drop (startedIn (pool.events ++ [.launched source])).length _ = _
    rw [startedIn_append, List.length_append, ← List.drop_drop]
    exact congrArg (List.drop 1) coming
  · rcases List.prefix_concat_iff.mp earlier with rfl | inside
    · rw [now]
      exact Int.ofNat_le.mpr within
    · exact staffed.bounded past inside

theorem launchWaiting {waiting : List String}
    (staffed : Staffed launcher sources state limit { pool with waiting }) :
    Staffed launcher sources state limit (pool.launchWaiting launcher waiting) :=
  launchWaiting_induction (motive := Staffed launcher sources state limit)
    (fun _ _ _ room before => before.launch (before.limit_eq ▸ room)) staffed

theorem round (staffed : Staffed launcher sources state limit pool) :
    Staffed launcher sources state limit (pool.round launcher) :=
  staffed.pollAll.reportFront.launchWaiting

end Staffed

/-- Whatever starting workers leads to and however long they run, the events of a pool tell at
any time how many of its workers run, the recordings being started in order.  Behind no event do
more workers run than the limit, which is at least one.  Whenever jobs are left behind a round
and the pool goes to sleep, exactly as many run, or every recording has been started. -/
theorem alive_settle (launcher : Launcher σ) (sources : List String) (limit : Nat) (state : σ)
    (rounds : Nat) :
    let pool := settle launcher rounds (.begin sources limit state)
    let started := launches launcher sources state
    startedIn pool.events <+: sources ∧ alive started pool.events = pool.running ∧
      (∀ past, past <+: pool.events → alive started past ≤ (max 1 limit : Nat)) ∧
      (pool.isSettled = false →
        alive started pool.events = (max 1 limit : Nat) ∨ startedIn pool.events = sources) := by
  intro pool started
  have staffed : Staffed launcher sources state (max 1 limit) pool :=
    settle_induction (motive := Staffed launcher sources state (max 1 limit))
      (fun _ => Staffed.round) (.start launcher sources limit state) rounds
  obtain ⟨past, underway⟩ := exists_underway_settle launcher sources limit state rounds
  refine ⟨⟨pool.waiting, underway.started⟩, staffed.alive_eq, staffed.bounded, fun busy => ?_⟩
  cases rounds with
  | zero => cases busy
  | succ rounds =>
      rcases full_settle launcher (.begin sources limit state) rounds with drained | full
      · have started := underway.started
        change pool.waiting = [] at drained
        rw [drained, List.append_nil] at started
        exact .inr started
      · change pool.limit ≤ pool.running at full
        rw [staffed.limit_eq] at full
        rw [staffed.alive_eq, Nat.le_antisymm staffed.within full]
        exact .inl rfl

def endlessLauncher : Launcher Unit := fun source state =>
  (if source = "missing" then .error "no such program" else .ok ⟨none, "", 0⟩, state)

/-- The recording without a worker takes no room, but the one behind it does. -/
theorem alive_settle_endless :
    let sources := ["missing", "first", "second"]
    let pool := settle endlessLauncher 3 (.begin sources 0 ())
    pool.isSettled = false ∧ startedIn pool.events = ["missing", "first"] ∧
      alive (launches endlessLauncher sources ()) pool.events = 1 := by
  intro sources pool
  have busy : pool.isSettled = false := by decide +kernel
  have begun : startedIn pool.events = ["missing", "first"] := by decide +kernel
  refine ⟨busy, begun, ?_⟩
  rcases (alive_settle endlessLauncher sources 0 () 3).2.2.2 busy with full | all
  · exact full
  · rw [begun] at all
    exact absurd all (by decide)

end Pool

end MatchTape.Screening
