import MatchTape.Proofs.Playback.Calls

/-!
# Interrupted playback

A session may be interrupted behind some of its frames: it saves a checkpoint there, or it is asked
to stop, which is taken back afterwards.  Between two interruptions it plays the frames that it
would have played anyway.  A stop leaves no trace; a checkpoint that was saved is still asked for,
and no run ever comes to its frame again.
-/

namespace MatchTape.Playback

open Record World Tape

namespace Session

variable {session after final : Session} {report : Report} {count left : Nat}

def asking (request : Option SaveRequest) (session : Session) : Session :=
  { session with request }

/-- What is played does not depend on the checkpoint that is asked for. -/
theorem step_asking (stepped : step session = .ok report after) (request : Option SaveRequest) :
    step (session.asking request) = .ok report (after.asking request) := by
  obtain ⟨batch, tape, taken, rfl, rfl⟩ := step_eq_ok stepped
  exact step_of_take taken

/-! ## Frames without a contradiction -/

inductive Advances : Nat → Session → Session → Prop where
  | here (session : Session) : Advances 0 session session
  | next {count : Nat} {session between after : Session} {report : Report}
      (stepped : step session = .ok report between) (agrees : report.contradicted? = none)
      (more : Advances count between after) : Advances (count + 1) session after

theorem advances_of_playFrames (plays : playFrames left session = .ok .completed final) :
    Advances left session final := by
  induction left generalizing session with
  | zero =>
      cases course 0 session with
      | completed rests =>
          rw [rests] at plays
          cases plays
          exact .here final
      | stopped rests =>
          rw [rests] at plays
          cases plays
  | succ left ih =>
      cases course (left + 1) session with
      | stopped rests | failed _ rests | due _ _ rests | contradicted _ _ _ rests =>
          rw [rests] at plays
          cases plays
      | goesOn stepped _ agrees goes => exact .next stepped agrees (ih (goes ▸ plays))

namespace Advances

theorem asking (advances : Advances count session after) (request : Option SaveRequest) :
    Advances count (session.asking request) (after.asking request) := by
  induction advances with
  | here session => exact .here _
  | next stepped agrees _ ih => exact .next (step_asking stepped request) agrees ih

theorem split {more : Nat} (advances : Advances (count + more) session final) :
    ∃ between, Advances count session between ∧ Advances more between final := by
  induction count generalizing session with
  | zero =>
      rw [Nat.zero_add] at advances
      exact ⟨session, .here session, advances⟩
  | succ count ih =>
      rw [Nat.succ_add] at advances
      cases advances with
      | next stepped agrees rest =>
          obtain ⟨between, first, second⟩ := ih rest
          exact ⟨between, .next stepped agrees first, second⟩

theorem request (advances : Advances count session after) : after.request = session.request := by
  induction advances with
  | here session => rfl
  | next stepped _ _ ih => exact ih.trans (onward_step stepped).request

theorem stopRaised (advances : Advances count session after) :
    after.stopRaised = session.stopRaised := by
  induction advances with
  | here session => rfl
  | next stepped _ _ ih => exact ih.trans (stopRaised_step stepped)

theorem frameCount (advances : Advances count session after) :
    after.frameCount = session.frameCount := by
  induction advances with
  | here session => rfl
  | next stepped _ _ ih => exact ih.trans (frameCount_step stepped)

theorem stands {setup : Setup} (advances : Advances count session after)
    (stands : Arena.At setup session.frame session.arena)
    (room : session.frame.toNat + count < 2 ^ 32) :
    Arena.At setup after.frame after.arena ∧
      after.frame.toNat = session.frame.toNat + count := by
  induction advances with
  | here session => exact ⟨stands, rfl⟩
  | @next count session between _ report stepped _ _ ih =>
      have further := stands_step stands stepped
      have frame : between.frame = session.frame + 1 := further.frame
      have number : between.frame.toNat = session.frame.toNat + 1 := by
        rw [frame, UInt32.toNat_add]
        exact Nat.mod_eq_of_lt (by change session.frame.toNat + 1 < 2 ^ 32; omega)
      obtain ⟨there, total⟩ := ih (frame ▸ further) (by omega)
      exact ⟨there, by omega⟩

/-- A session that asks for nothing plays such frames to the end. -/
theorem playFrames (advances : Advances count session after)
    (plain : session.request = none) (running : session.stopRaised = false) :
    Session.playFrames count session = .ok .completed after := by
  induction advances with
  | here session => simp only [Session.playFrames, running, Bool.false_eq_true, if_false]
  | next stepped agrees _ ih =>
      have still := (onward_step stepped).request.trans plain
      rw [playFrames_succ running stepped (due?_eq_none still), agrees]
      exact ih still ((stopRaised_step stepped).trans running)

/-- A session that asks for a checkpoint behind such frames comes to it. -/
theorem playFrames_due {setup : Setup} {request : SaveRequest}
    (advances : Advances (count + 1) session after)
    (asked : session.request = some request) (there : request.frame = after.frame)
    (running : session.stopRaised = false) (stands : Arena.At setup session.frame session.arena)
    (room : session.frame.toNat + (count + 1) < 2 ^ 32) (left : Nat) :
    Session.playFrames (count + 1 + left) session = .ok (.due request.name) after := by
  induction count generalizing session with
  | zero =>
      cases advances with
      | next stepped _ rest =>
          cases rest
          have due : after.due? = some request.name := by
            rw [due?, (onward_step stepped).request, asked]
            exact if_pos there.symm
          rw [Nat.zero_add, Nat.add_comm]
          exact playFrames_succ_due running stepped due
  | succ count ih =>
      cases advances with
      | @next _ _ between _ report stepped agrees rest =>
          have still := (onward_step stepped).request.trans asked
          have one : Advances 1 session between := .next stepped agrees (.here between)
          obtain ⟨further, number⟩ := one.stands stands (by omega)
          obtain ⟨-, total⟩ := rest.stands further (by omega)
          have free : between.due? = none := by
            have apart : between.frame ≠ request.frame := by
              rw [there]
              intro same
              rw [same] at total
              omega
            rw [due?, still]
            exact if_neg apart
          have frames : count + 1 + 1 + left = count + 1 + left + 1 := by omega
          rw [frames, playFrames_succ running stepped free, agrees]
          exact ih rest still ((stopRaised_step stepped).trans running) further (by omega)

end Advances

end Session

/-! ## Interruptions -/

/-- An interruption behind a number of frames: a checkpoint is saved under a name, or playback is
stopped if there is none. -/
structure Interruption (σ : Type) where
  frame : UInt32
  store : Store σ
  checkpoint? : Option String

variable {σ : Type}

namespace Interruption

/-- The calls that lead to an interruption behind some frames that were played: a run up to the
checkpoint, or steps and a run that is to stop at once. -/
def calls (played : UInt32) (interruption : Interruption σ) : List (Call σ) :=
  match interruption.checkpoint? with
  | some name => [.request ⟨interruption.frame, name⟩, .run interruption.store]
  | none =>
      List.replicate (interruption.frame.toNat - played.toNat) .step ++
        [.raiseStop, .run interruption.store, .lowerStop]

def verdict (interruption : Interruption σ) : Verdict :=
  match interruption.checkpoint? with
  | some name => .saved interruption.frame name
  | none => .stopped interruption.frame

def allCalls : UInt32 → List (Interruption σ) → List (Call σ)
  | _, [] => []
  | played, interruption :: others =>
      interruption.calls played ++ allCalls interruption.frame others

end Interruption

def verdict? : Except Failure Answer → Option Verdict
  | .ok (.ended verdict) => some verdict
  | _ => none

open Session

theorem Session.Advances.perform {count : Nat} {session after : Session}
    (advances : Advances count session after) (shelf : σ) :
    Attempts.final perform (List.replicate count .step) (session, shelf) = (after, shelf) ∧
      (Attempts.outcomes perform (List.replicate count .step) (session, shelf)).filterMap
        verdict? = [] := by
  induction advances with
  | here session => exact ⟨rfl, rfl⟩
  | @next count session between after report stepped _ _ ih =>
      have performed := perform_step stepped shelf
      rw [List.replicate_succ, Attempts.final, Attempts.outcomes, Attempts.left_of_ok performed,
        Attempts.outcome_of_ok performed]
      exact ih

theorem Session.run_raised {session : Session} (raised : session.stopRaised = true)
    (store : Store σ) (shelf : σ) :
    (run store session shelf).2 = (session, shelf) ∧
      (session.request = none → (run store session shelf).1 = .ok (.stopped session.frame)) := by
  have rests : play session = .ok .stopped session := by
    rw [play]
    cases session.framesLeft <;> simp only [playFrames, raised, if_true]
  cases outside : session.outsideRequest? with
  | some request =>
      have asked : session.request ≠ none := by
        intro plain
        rw [outsideRequest?, plain] at outside
        cases outside
      rw [run, outside]
      exact ⟨rfl, fun plain => absurd plain asked⟩
  | none =>
      rw [run, outside, rests]
      exact ⟨rfl, fun _ => rfl⟩

/-- A session stands between two interruptions.  Were it not for the checkpoint that it asks for, it
would play on to the end without a contradiction; but that checkpoint lies behind it. -/
structure Paused (final session : Session) : Prop where
  running : session.stopRaised = false
  stands : ∃ setup, Arena.At setup session.frame session.arena
  inside : session.frame ≤ session.frameCount
  passed : ∀ request ∈ session.request, request.frame ≤ session.frame
  advances : Advances session.framesLeft (session.asking none) final

namespace Paused

variable {final session : Session} {frame : UInt32}

theorem frameCount (paused : Paused final session) : session.frameCount = final.frameCount :=
  paused.advances.frameCount.symm

theorem ahead (paused : Paused final session) (reached : session.frame ≤ frame)
    (inside : frame ≤ session.frameCount) :
    ∃ after, Advances (frame.toNat - session.frame.toNat) session after ∧ after.frame = frame ∧
      Paused final after := by
  obtain ⟨setup, stands⟩ := paused.stands
  have bound := session.frameCount.toNat_lt
  rw [UInt32.le_iff_toNat_le] at reached inside
  have parts : session.framesLeft = frame.toNat - session.frame.toNat +
      (session.frameCount.toNat - frame.toNat) := by
    rw [framesLeft]
    omega
  have advances := paused.advances
  rw [parts] at advances
  obtain ⟨plain, first, rest⟩ := advances.split
  have goes : Advances (frame.toNat - session.frame.toNat) session
      (plain.asking session.request) := first.asking session.request
  have free : (plain.asking session.request).asking none = plain := by
    change { plain with request := none } = plain
    rw [← show plain.request = none from first.request]
  obtain ⟨there, number⟩ := goes.stands stands (by omega)
  have reaches : (plain.asking session.request).frame = frame := by
    apply UInt32.toNat_inj.mp
    omega
  have count := goes.frameCount
  refine ⟨_, goes, reaches, goes.stopRaised.trans paused.running, ⟨setup, there⟩, ?_, ?_, ?_⟩
  · rw [reaches, count, UInt32.le_iff_toNat_le]
    exact inside
  · intro request asked
    rw [reaches]
    exact UInt32.le_trans (paused.passed request asked) (UInt32.le_iff_toNat_le.mpr reached)
  · rw [free, framesLeft, reaches, count]
    exact rest

/-- Stopped behind a frame and let go again, the session has played the frames up to there and no
more. -/
theorem stop (paused : Paused final session) (reached : session.frame ≤ frame)
    (inside : frame ≤ session.frameCount) (store : Store σ) (shelf : σ) :
    let calls := Interruption.calls session.frame ⟨frame, store, none⟩
    ∃ after, Attempts.final perform calls (session, shelf) = (after, shelf) ∧
      Paused final after ∧ after.frame = frame ∧ after.request = session.request ∧
      (session.request = none → (Attempts.outcomes perform calls (session, shelf)).filterMap
        verdict? = [.stopped frame]) := by
  intro calls
  obtain ⟨after, advances, there, further⟩ := paused.ahead reached inside
  obtain ⟨steps, silent⟩ := advances.perform shelf
  obtain ⟨answer, behind⟩ := perform_run store after.raiseStop shelf
  have halted : after.raiseStop.stopRaised = true := rfl
  obtain ⟨still, stopped⟩ := run_raised halted store shelf
  have lowered : after.raiseStop.lowerStop = after := by
    change { after with stopRaised := false } = after
    rw [← further.running]
  have raised : Attempts.left (perform .raiseStop) (after, shelf) = (after.raiseStop, shelf) := rfl
  have taken : Attempts.left (perform .lowerStop) (after.raiseStop, shelf) =
      (after.raiseStop.lowerStop, shelf) := rfl
  refine ⟨after, ?_, further, there, advances.request, fun plain => ?_⟩
  · simp only [calls, Interruption.calls, Attempts.final_append, steps, Attempts.final, raised,
      behind, still, taken, lowered]
  · have stops := stopped (advances.request.trans plain)
    have frame : after.raiseStop.frame = frame := there
    simp only [calls, Interruption.calls, Attempts.outcomes_append, steps, List.filterMap_append,
      silent, Attempts.outcomes, raised, behind, still, answer, stops, frame, Except.map]
    rfl

/-- Asked for a checkpoint ahead, the session plays up to its frame, whether or not the store takes
the checkpoint. -/
theorem run_asking (paused : Paused final session) (reached : session.frame < frame)
    (inside : frame ≤ session.frameCount) (store : Store σ) (name : String) (shelf : σ) :
    let asking := session.asking (some ⟨frame, name⟩)
    ∃ after shelved, (run store asking shelf).2 = (after, shelved) ∧
      Paused final after ∧ after.frame = frame ∧ after.request = some ⟨frame, name⟩ ∧
      ((∀ checkpoint, (store.save name checkpoint shelf).1 = .ok ()) →
        (run store asking shelf).1 = .ok (.saved frame name)) := by
  intro asking
  obtain ⟨between, advances, there, further⟩ := paused.ahead (UInt32.le_of_lt reached) inside
  obtain ⟨setup, stands⟩ := paused.stands
  have goes := advances.asking (some ⟨frame, name⟩)
  have granted : asking.outsideRequest? = none := outsideRequest?_eq_none rfl reached inside
  have bound := session.frameCount.toNat_lt
  rw [UInt32.lt_iff_toNat_lt] at reached
  rw [UInt32.le_iff_toNat_le] at inside
  obtain ⟨count, frames⟩ : ∃ count, frame.toNat - session.frame.toNat = count + 1 :=
    ⟨frame.toNat - session.frame.toNat - 1, by omega⟩
  have room : session.frame.toNat + (count + 1) < 2 ^ 32 := by omega
  have parts : asking.framesLeft = count + 1 + (session.frameCount.toNat - frame.toNat) := by
    change session.frameCount.toNat - session.frame.toNat = _
    omega
  rw [frames] at goes
  have plays : play asking = .ok (.due name) (between.asking (some ⟨frame, name⟩)) := by
    rw [play, parts]
    exact goes.playFrames_due rfl there.symm paused.running stands room _
  have pauses : Paused final (between.asking (some ⟨frame, name⟩)) := by
    refine ⟨further.running, further.stands, further.inside, ?_, further.advances⟩
    rintro request ⟨⟩
    exact UInt32.le_of_eq there.symm
  rcases saves : store.save name (between.asking (some ⟨frame, name⟩)).checkpoint shelf with
    ⟨cause | _, shelved⟩
  · rw [run_due_error granted plays saves]
    refine ⟨_, shelved, rfl, pauses, there, rfl, fun keeps => ?_⟩
    have kept := keeps (between.asking (some ⟨frame, name⟩)).checkpoint
    rw [saves] at kept
    cases kept
  · rw [run_due granted plays saves]
    refine ⟨_, shelved, rfl, pauses, there, rfl, fun _ => ?_⟩
    exact congrArg (fun frame => Except.ok (Verdict.saved frame name)) there

/-- Behind the frame of a checkpoint the session goes on asking for it. -/
theorem save (paused : Paused final session) (reached : session.frame < frame)
    (inside : frame ≤ session.frameCount) (store : Store σ) (name : String) (shelf : σ) :
    let calls := Interruption.calls session.frame ⟨frame, store, some name⟩
    ∃ after shelved, Attempts.final perform calls (session, shelf) = (after, shelved) ∧
      Paused final after ∧ after.frame = frame ∧ after.request = some ⟨frame, name⟩ ∧
      ((∀ checkpoint, (store.save name checkpoint shelf).1 = .ok ()) →
        (Attempts.outcomes perform calls (session, shelf)).filterMap verdict? =
          [.saved frame name]) := by
  intro calls
  obtain ⟨after, shelved, left, pauses, there, asks, saved⟩ :=
    paused.run_asking reached inside store name shelf
  obtain ⟨answer, behind⟩ := perform_run store (session.asking (some ⟨frame, name⟩)) shelf
  have asked : Attempts.left (perform (.request ⟨frame, name⟩)) (session, shelf) =
      (session.asking (some ⟨frame, name⟩), shelf) := rfl
  refine ⟨after, shelved, ?_, pauses, there, asks, fun keeps => ?_⟩
  · simp only [calls, Interruption.calls, Attempts.final, asked, behind, left]
  · simp only [calls, Interruption.calls, Attempts.outcomes, asked, answer, saved keeps,
      Except.map]
    rfl

/-- A session that asks for nothing plays on to the end. -/
theorem completes (paused : Paused final session) (plain : session.request = none)
    (store : Store σ) (shelf : σ) :
    run store session shelf =
      (.ok (.completed final.frame final.arena.checksum final.accumulator), final, shelf) := by
  have goes : Advances session.framesLeft session final := by
    have advances := paused.advances
    rwa [show session.asking none = session by rw [asking, ← plain]] at advances
  rw [run_plain store shelf plain, play, goes.playFrames plain paused.running]
  rfl

/-- A session that still asks for a checkpoint does not run any more. -/
theorem refuses {request : SaveRequest} (paused : Paused final session)
    (asked : session.request = some request) (store : Store σ) (shelf : σ) :
    run store session shelf = (.error (session.outsideFailure request), session, shelf) := by
  have behind : request.frame ≤ session.frame := paused.passed request asked
  have outside : session.outsideRequest? = some request := by
    simp only [outsideRequest?, asked, Option.filter_some, behind, decide_true, Bool.true_or,
      if_true]
  rw [run, outside]

/-- Interruptions one after another lead from one pause to the next.  The session asks for nothing
behind them if and only if it did not before and none of them saves a checkpoint. -/
theorem interrupted (paused : Paused final session) {interruptions : List (Interruption σ)}
    (ascending : (interruptions.map Interruption.frame).Pairwise (· < ·))
    (ahead : ∀ interruption ∈ interruptions, session.frame < interruption.frame)
    (inside : ∀ interruption ∈ interruptions, interruption.frame ≤ final.frameCount) (shelf : σ) :
    let calls := Interruption.allCalls session.frame interruptions
    ∃ after shelved, Attempts.final perform calls (session, shelf) = (after, shelved) ∧
      Paused final after ∧
      (after.request = none ↔
        session.request = none ∧ ∀ interruption ∈ interruptions, interruption.checkpoint? = none) ∧
      (session.request = none →
        (∀ interruption ∈ interruptions, interruption.checkpoint? = none) →
        (Attempts.outcomes perform calls (session, shelf)).filterMap verdict? =
          interruptions.map Interruption.verdict) := by
  induction interruptions generalizing session shelf with
  | nil =>
      exact ⟨session, shelf, rfl, paused, by simp, fun _ _ => rfl⟩
  | cons first others ih =>
      rw [List.map_cons, List.pairwise_cons] at ascending
      obtain ⟨later, ascending⟩ := ascending
      obtain ⟨reached, -⟩ := List.forall_mem_cons.mp ahead
      obtain ⟨fits, fitting⟩ := List.forall_mem_cons.mp inside
      rw [← paused.frameCount] at fits
      obtain ⟨frame, store, checkpoint?⟩ := first
      have behind : ∀ interruption ∈ others, frame < interruption.frame := fun other member =>
        later _ (List.mem_map_of_mem member)
      intro calls
      cases checkpoint? with
      | none =>
          obtain ⟨between, final, further, there, asks, stopped⟩ :=
            paused.stop (UInt32.le_of_lt reached) fits store shelf
          obtain ⟨after, shelved, ends, rests, plain, verdicts⟩ :=
            ih further ascending (there ▸ behind) fitting shelf
          rw [there] at ends verdicts
          refine ⟨after, shelved, ?_, rests, ?_, fun free stops => ?_⟩
          · simp only [calls, Interruption.allCalls, Attempts.final_append, final, ends]
          · rw [plain, asks, List.forall_mem_cons]
            simp
          · obtain ⟨-, stops⟩ := List.forall_mem_cons.mp stops
            simp only [calls, Interruption.allCalls, Attempts.outcomes_append, final,
              List.filterMap_append, stopped free, verdicts (asks.trans free) stops]
            rfl
      | some name =>
          obtain ⟨between, shelfBetween, final, further, there, asks, -⟩ :=
            paused.save reached fits store name shelf
          obtain ⟨after, shelved, ends, rests, plain, -⟩ :=
            ih further ascending (there ▸ behind) fitting shelfBetween
          rw [there] at ends
          refine ⟨after, shelved, ?_, rests, ?_, fun _ stops => ?_⟩
          · simp only [calls, Interruption.allCalls, Attempts.final_append, final, ends]
          · rw [plain, asks, List.forall_mem_cons]
            simp
          · cases (List.forall_mem_cons.mp stops).1

end Paused

theorem paused_start {tape : Tape} {session final : Session} (started : start tape = .ok session)
    (plays : play session = .ok .completed final) : Paused final session := by
  obtain ⟨setup, -, rfl⟩ := start_eq started
  have begins := Arena.at_begin setup
  have first : (resume tape (.begin setup) 0).frame = 0 := begins.frame
  refine ⟨rfl, ⟨setup, first ▸ begins⟩, ?_, nofun, advances_of_playFrames plays⟩
  rw [first]
  exact UInt32.zero_le

/-- A session that would complete is interrupted behind some frames, in ascending order.  The runs
that are interrupted end there, the run behind the last of them completes as if there had been
none, and all reports are the same, if and only if none of the interruptions saves a checkpoint. -/
theorem completes_interrupted_iff {tape : Tape} {session final : Session} {store : Store σ}
    {shelf shelved : σ} {frames checksum accumulator : UInt32}
    (started : start tape = .ok session)
    (completes : session.run store shelf =
      (.ok (.completed frames checksum accumulator), final, shelved))
    (interruptions : List (Interruption σ))
    (ascending : (interruptions.map Interruption.frame).Pairwise (· < ·))
    (inside : ∀ interruption ∈ interruptions,
      1 ≤ interruption.frame ∧ interruption.frame ≤ tape.frameCount) :
    let calls := Interruption.allCalls 0 interruptions
    let paused := Attempts.final perform calls (session, shelf)
    ((Attempts.outcomes perform calls (session, shelf)).filterMap verdict? =
        interruptions.map Interruption.verdict ∧
      Attempts.outcome (perform (.run store)) paused =
        .ok (.ended (.completed frames checksum accumulator)) ∧
      (Attempts.left (perform (.run store)) paused).1.reports = final.reports) ↔
    ∀ interruption ∈ interruptions, interruption.checkpoint? = none := by
  intro calls paused
  obtain ⟨-, plays⟩ := play_of_run completes
  have begins := paused_start started plays
  obtain ⟨setup, -, rfl⟩ := start_eq started
  have first : (resume tape (.begin setup) 0).frame = 0 := (Arena.at_begin setup).frame
  have plain : (resume tape (.begin setup) 0).request = none := rfl
  have whole := begins.completes plain store shelf
  rw [completes, Prod.mk.injEq, Except.ok.injEq] at whole
  obtain ⟨after, shelfAfter, ends, rests, asks, verdicts⟩ := begins.interrupted ascending
    (fun interruption member => by
      rw [first]
      exact UInt32.lt_of_lt_of_le (by decide) (inside interruption member).1)
    (fun interruption member => begins.frameCount ▸ (inside interruption member).2) shelf
  rw [first] at ends verdicts
  obtain ⟨answer, behind⟩ := perform_run store after shelfAfter
  simp only [paused, calls, ends, answer, behind]
  constructor
  · rintro ⟨-, completed, -⟩
    cases asked : after.request with
    | none => exact (asks.mp asked).2
    | some request =>
        rw [rests.refuses asked] at completed
        cases completed
  · intro stops
    rw [rests.completes (asks.mpr ⟨plain, stops⟩), whole.1]
    exact ⟨verdicts plain stops, rfl, rfl⟩

/-- A recording of two frames, the first of which leads to the recorded checksum, is played
without an interruption. -/
theorem run_agreeing {σ : Type} (store : Store σ) (shelf : σ) :
    ∃ tape, ofBytes "agreeing.rep" (recordingOf 2 [agreeing]) = .ok tape ∧
      tape.frameCount = 2 ∧ start tape = .ok (resume tape (.begin {}) 0) ∧
      ∃ final checksum accumulator, run store (resume tape (.begin {}) 0) shelf =
        (.ok (.completed 2 checksum accumulator), final, shelf) := by
  obtain ⟨tape, opened, sheet, reads⟩ := opens_agreeing "agreeing.rep" 2
  have count : tape.frameCount = 2 := congrArg Record.MatchSheet.frameCount sheet
  have agrees : ∀ frame < tape.frameCount.toNat,
      Script.contradicts ⟨{}, [agreeing]⟩ frame = false := by
    rw [count]
    decide +kernel
  obtain ⟨final, runs, -⟩ := run_completes store shelf reads ⟨reads.ascending, by decide⟩ agrees
  rw [count] at runs
  exact ⟨tape, opened, count, start_of_sheet tape sheet, final, _, _, runs⟩

/-- A session is stopped behind each of its two frames, and still completes. -/
theorem completes_interrupted_iff_stopping :
    let store := Store.inFolder ""
    let shelf := Files.Tree.empty
    ∃ tape session final checksum accumulator,
      ofBytes "agreeing.rep" (recordingOf 2 [agreeing]) = .ok tape ∧
      start tape = .ok session ∧
      session.run store shelf = (.ok (.completed 2 checksum accumulator), final, shelf) ∧
      let calls := Interruption.allCalls 0 [⟨1, store, none⟩, ⟨2, store, none⟩]
      let paused := Attempts.final perform calls (session, shelf)
      (Attempts.outcomes perform calls (session, shelf)).filterMap verdict? =
        [.stopped 1, .stopped 2] ∧
      Attempts.outcome (perform (.run store)) paused =
        .ok (.ended (.completed 2 checksum accumulator)) ∧
      (Attempts.left (perform (.run store)) paused).1.reports = final.reports := by
  intro store shelf
  obtain ⟨tape, opened, count, started, final, checksum, accumulator, completes⟩ :=
    run_agreeing store shelf
  have stops : ∀ interruption ∈ [(⟨1, store, none⟩ : Interruption Files.Tree), ⟨2, store, none⟩],
      interruption.checkpoint? = none := by
    decide
  exact ⟨tape, _, final, checksum, accumulator, opened, started, completes,
    (completes_interrupted_iff started completes [⟨1, store, none⟩, ⟨2, store, none⟩]
      (by decide) (by rw [count]; decide)).mpr stops⟩

/-- A session saves a checkpoint behind the first of its two frames.  The run behind it fails,
because the checkpoint is still asked for. -/
theorem saved_outside :
    let store := Store.inFolder ""
    let shelf := Files.Tree.empty
    ∃ tape session final checksum accumulator,
      ofBytes "agreeing.rep" (recordingOf 2 [agreeing]) = .ok tape ∧
      start tape = .ok session ∧
      session.run store shelf = (.ok (.completed 2 checksum accumulator), final, shelf) ∧
      let calls := Interruption.allCalls 0 [⟨1, store, some "half"⟩]
      (Attempts.outcomes perform calls (session, shelf)).filterMap verdict? =
        [.saved 1 "half"] ∧
      Attempts.outcome (perform (.run store)) (Attempts.final perform calls (session, shelf)) =
        .error (.checkpointSave "half" (.outsideRemaining 1 2 2)) := by
  intro store shelf
  obtain ⟨tape, opened, count, started, final, checksum, accumulator, completes⟩ :=
    run_agreeing store shelf
  obtain ⟨-, plays⟩ := play_of_run completes
  have begins := paused_start started plays
  have first : (resume tape (.begin {}) 0).frame = 0 := (Arena.at_begin {}).frame
  have reached : (resume tape (.begin {}) 0).frame < 1 := by
    rw [first]
    decide
  have inside : 1 ≤ (resume tape (.begin {}) 0).frameCount := by
    rw [Session.frameCount, resume, count]
    decide
  obtain ⟨after, shelved, ends, rests, there, asks, saved⟩ :=
    begins.save reached inside store "half" shelf
  have verdicts := saved fun _ => rfl
  rw [first] at ends verdicts
  have countAfter : after.frameCount = 2 :=
    (rests.frameCount.trans begins.frameCount.symm).trans count
  refine ⟨tape, _, final, checksum, accumulator, opened, started, completes, verdicts, ?_⟩
  change Attempts.outcome (perform (.run store))
    (Attempts.final perform (Interruption.calls 0 ⟨1, store, some "half"⟩) _) = _
  rw [ends, (perform_run store after shelved).1, rests.refuses asks, outsideFailure, there,
    countAfter]
  rfl

end MatchTape.Playback
