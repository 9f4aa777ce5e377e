import MatchTape.Proofs.Attempts
import MatchTape.Proofs.Playback.Reference

/-!
# Calls on a session

A session may be stepped and run, asked for checkpoints and asked to stop, in any order.  Every
frame that diverges is told of in the answer to some call, unless a checkpoint is saved in its
place; a session that is asked for a checkpoint never completes.  A run that completes therefore
has no divergence behind it if and only if none was told of before.
-/

namespace MatchTape.Playback

open World Tape

inductive Call (σ : Type) where
  | step
  | run (store : Store σ)
  | request (request : SaveRequest)
  | raiseStop
  | lowerStop

inductive Answer where
  | done
  | played (report : Report)
  | ended (verdict : Verdict)
  deriving DecidableEq, Repr

def Answer.isError : Answer → Bool
  | .done => false
  | .played report => report.diverged
  | .ended verdict => verdict.isError

def tells : Except Failure Answer → Bool
  | .ok answer => answer.isError
  | .error _ => false

variable {σ : Type}

def perform : Call σ → EStateM Failure (Session × σ) Answer
  | .step => fun (session, shelf) =>
      match session.step with
      | .ok report session => .ok (.played report) (session, shelf)
      | .error failure session => .error failure (session, shelf)
  | .run store => fun (session, shelf) =>
      match session.run store shelf with
      | (.ok verdict, session, shelf) => .ok (.ended verdict) (session, shelf)
      | (.error failure, session, shelf) => .error failure (session, shelf)
  | .request request => fun (session, shelf) =>
      .ok .done (session.requestCheckpoint request, shelf)
  | .raiseStop => fun (session, shelf) => .ok .done (session.raiseStop, shelf)
  | .lowerStop => fun (session, shelf) => .ok .done (session.lowerStop, shelf)

open Session

/-! ## Single calls -/

/-- A call has led from one session to another.  What it is answered with tells of a divergence
only if one of the frames that were played diverges, and always then if no checkpoint is asked
for. -/
def Answers (session : Session) (result : Except Failure Answer) (after : Session) : Prop :=
  ∃ more, Played more session after ∧
    (tells result = true → more.any Report.diverged = true) ∧
    (session.request = none → more.any Report.diverged = true → tells result = true)

theorem perform_step {session after : Session} {report : Report}
    (stepped : session.step = .ok report after) (shelf : σ) :
    perform .step (session, shelf) = .ok (.played report) (after, shelf) := by
  simp only [perform, stepped]

theorem perform_step_error {session after : Session} {failure : Failure}
    (failed : session.step = .error failure after) (shelf : σ) :
    perform .step (session, shelf) = .error failure (after, shelf) := by
  simp only [perform, failed]

theorem answers_step (session : Session) (shelf : σ) :
    Answers session (Attempts.outcome (perform .step) (session, shelf))
      (Attempts.left (perform .step) (session, shelf)).1 := by
  cases stepped : session.step with
  | error failure after =>
      have performed := perform_step_error stepped shelf
      rw [Attempts.outcome_of_error performed, Attempts.left_of_error performed]
      exact ⟨[], .of_step_error stepped, id, fun _ => id⟩
  | ok report after =>
      have performed := perform_step stepped shelf
      have single : [report].any Report.diverged = report.diverged := by
        rw [List.any_cons, List.any_nil, Bool.or_false]
      rw [Attempts.outcome_of_ok performed, Attempts.left_of_ok performed]
      refine ⟨[report], .of_step stepped, ?_, ?_⟩
      · rw [single]
        exact id
      · rw [single]
        exact fun _ => id

theorem perform_run (store : Store σ) (session : Session) (shelf : σ) :
    Attempts.outcome (perform (.run store)) (session, shelf) =
        (session.run store shelf).1.map Answer.ended ∧
      Attempts.left (perform (.run store)) (session, shelf) = (session.run store shelf).2 := by
  rcases result : session.run store shelf with ⟨failure | verdict, after, shelved⟩
  all_goals
    rw [Attempts.outcome, Attempts.left]
    simp only [perform, result, Except.map, and_self]

theorem tells_outcome (played : EStateM.Result Failure Session Halt) :
    tells ((outcome played).map .ended) = contradicts played := by
  rcases played with ⟨halt, after⟩ | ⟨failure, after⟩
  · cases halt <;> rfl
  · rfl

theorem answers_run (store : Store σ) (session : Session) (shelf : σ) :
    Answers session (Attempts.outcome (perform (.run store)) (session, shelf))
      (Attempts.left (perform (.run store)) (session, shelf)).1 := by
  obtain ⟨answer, behind⟩ := perform_run store session shelf
  obtain ⟨more, played, shown, told⟩ := played_ending session.framesLeft session
  have course := ran store session shelf
  rw [answer, behind]
  generalize session.run store shelf = result at course
  cases course with
  | outside => exact ⟨[], .refl session, id, fun _ => id⟩
  | played inside =>
      rw [Answers, tells_outcome]
      exact ⟨more, played, shown, told⟩
  | saved plays | unsaved plays =>
      -- A checkpoint goes before a contradicted checksum, so that nothing is told of it.
      rw [← play, plays] at played told
      exact ⟨more, played, (absurd · Bool.false_ne_true), told⟩

theorem answers_stop (session : Session) (stopRaised : Bool) :
    Answers session (.ok .done) { session with stopRaised } :=
  ⟨[], .nothing rfl rfl rfl rfl, id, fun _ => id⟩

/-! ## Stepping to the end -/

theorem perform_run_of_complete {session : Session} (store : Store σ) (shelf : σ)
    (plain : session.request = none) (running : session.stopRaised = false)
    (complete : session.framesLeft = 0) :
    perform (.run store) (session, shelf) =
      .ok (.ended (.completed session.frame session.arena.checksum session.accumulator))
        (session, shelf) := by
  have rests : play session = .ok .completed session := by
    rw [play, complete]
    simp only [playFrames, running, Bool.false_eq_true, if_false]
  simp only [perform, run_plain store shelf plain, rests, outcome, ending, verdict]

/-- Every step makes the report of its frame, whether or not the frame diverges. -/
theorem steps_aligned {script : Script} (regular : script.Regular) {count played : Nat}
    {session : Session} (aligned : Aligned script played session)
    (room : played + count < 2 ^ 32) (shelf : σ) :
    ∃ after, Attempts.final perform (List.replicate count .step) (session, shelf) =
        (after, shelf) ∧
      Attempts.outcomes perform (List.replicate count .step) (session, shelf) =
        (List.range' played count).map (fun frame => .ok (.played (script.report frame))) ∧
      Aligned script (played + count) after ∧ after.frameCount = session.frameCount := by
  induction count generalizing played session with
  | zero => exact ⟨session, rfl, rfl, aligned, rfl⟩
  | succ count ih =>
      obtain ⟨next, stepped, further⟩ := aligned.step regular (by omega)
      obtain ⟨after, final, outcomes, done, frames⟩ := ih further (by omega)
      have performed := perform_step stepped shelf
      refine ⟨after, ?_, ?_, ?_, frames.trans (frameCount_step stepped)⟩
      · rw [List.replicate_succ, Attempts.final, Attempts.left_of_ok performed, final]
      · rw [List.replicate_succ, Attempts.outcomes, Attempts.left_of_ok performed, outcomes,
          Attempts.outcome_of_ok performed, List.range'_succ, List.map_cons]
      · rwa [Nat.add_right_comm] at done

/-- A session that has been stepped through its recording completes, whatever has diverged. -/
theorem steps_run {script : Script} (regular : script.Regular) {session : Session}
    (aligned : Aligned script 0 session) (store : Store σ) (shelf : σ) :
    let frames := session.frameCount.toNat
    ∃ after, Attempts.final perform (List.replicate frames .step) (session, shelf) =
        (after, shelf) ∧
      Attempts.outcomes perform (List.replicate frames .step) (session, shelf) =
        (List.range frames).map (fun frame => .ok (.played (script.report frame))) ∧
      perform (.run store) (after, shelf) =
        .ok (.ended (.completed session.frameCount (script.arena frames).checksum
          (script.accumulator frames))) (after, shelf) ∧
      after.reports.toList = (List.range frames).map script.report := by
  intro frames
  have room : 0 + frames < 2 ^ 32 := by
    rw [Nat.zero_add]
    exact session.frameCount.toNat_lt
  obtain ⟨after, final, outcomes, done, count⟩ := steps_aligned regular aligned room shelf
  rw [Nat.zero_add] at done
  have frame : after.frame = session.frameCount := by
    rw [Session.frame, done.frame, UInt32.ofNat_toNat]
  have complete : after.framesLeft = 0 := by
    rw [framesLeft, frame, count, Nat.sub_self]
  refine ⟨after, final, ?_, ?_, done.reports⟩
  · rw [outcomes, List.range_eq_range']
  · rw [perform_run_of_complete store shelf done.request done.stopRaised complete, frame,
      done.arena, done.accumulator]

/-! ## Sequences of calls -/

/-- What is known of a session from whether a divergence has been told of: the session has
diverged if one has been, and only then unless a checkpoint is asked for. -/
structure Accounts (told : Bool) (session : Session) : Prop where
  stands : ∃ setup frame, Arena.At setup frame session.arena
  flag : session.diverged = session.reports.toList.any Report.diverged
  shown : told = true → session.diverged = true
  told : session.request = none → session.diverged = true → told = true

theorem accounts_start {tape : Tape} {session : Session} (started : start tape = .ok session) :
    Accounts false session := by
  obtain ⟨setup, -, rfl⟩ := start_eq started
  exact ⟨⟨setup, 0, Arena.at_begin setup⟩, rfl, (absurd · Bool.false_ne_true), fun _ => id⟩

namespace Accounts

variable {told : Bool} {session after : Session} {state : Session × σ}

theorem answers {result : Except Failure Answer} (accounts : Accounts told session)
    (answers : Answers session result after) : Accounts (told || tells result) after := by
  obtain ⟨more, played, shown, tells⟩ := answers
  obtain ⟨setup, frame, stands⟩ := accounts.stands
  refine ⟨⟨setup, played.stands setup frame stands⟩, ?_, ?_, ?_⟩
  · rw [played.diverged, accounts.flag, played.reports, List.any_append]
  · intro either
    rw [played.diverged, Bool.or_eq_true]
    rcases (Bool.or_eq_true _ _).mp either with earlier | now
    · exact .inl (accounts.shown earlier)
    · exact .inr (shown now)
  · intro plain diverged
    rw [played.request] at plain
    rw [played.diverged, Bool.or_eq_true] at diverged
    rw [Bool.or_eq_true]
    rcases diverged with earlier | now
    · exact .inl (accounts.told plain earlier)
    · exact .inr (tells plain now)

/-- No later divergence needs to be told of once a checkpoint is asked for. -/
theorem request (accounts : Accounts told session) (request : SaveRequest) :
    Accounts told (session.requestCheckpoint request) :=
  ⟨accounts.stands, accounts.flag, accounts.shown, fun plain => by cases plain⟩

theorem perform (accounts : Accounts told state.1) (call : Call σ) :
    Accounts (told || tells (Attempts.outcome (perform call) state))
      (Attempts.left (perform call) state).1 := by
  obtain ⟨session, shelf⟩ := state
  cases call with
  | step => exact accounts.answers (answers_step session shelf)
  | run store => exact accounts.answers (answers_run store session shelf)
  | request request =>
      change Accounts (told || false) _
      rw [Bool.or_false]
      exact accounts.request request
  | raiseStop => exact accounts.answers (answers_stop session true)
  | lowerStop => exact accounts.answers (answers_stop session false)

theorem final (accounts : Accounts told state.1) (calls : List (Call σ)) :
    Accounts (told || (Attempts.outcomes Playback.perform calls state).any tells)
      (Attempts.final Playback.perform calls state).1 := by
  induction calls generalizing told state with
  | nil =>
      change Accounts (told || false) state.1
      rw [Bool.or_false]
      exact accounts
  | cons call calls ih =>
      rw [Attempts.outcomes, Attempts.final, List.any_cons, ← Bool.or_assoc]
      exact ih (accounts.perform call)

/-- Behind a run that completes it is known whether the session has diverged. -/
theorem completed (accounts : Accounts told state.1) {store : Store σ}
    {frames checksum accumulator : UInt32}
    (completes : Attempts.outcome (Playback.perform (.run store)) state =
      .ok (.ended (.completed frames checksum accumulator))) :
    (Attempts.left (Playback.perform (.run store)) state).1.diverged = told := by
  obtain ⟨session, shelf⟩ := state
  have after := accounts.perform (.run store)
  obtain ⟨answer, behind⟩ := perform_run store session shelf
  obtain ⟨more, played, -⟩ := answers_run store session shelf
  -- Had a checkpoint been asked for, a divergence might have gone untold.
  have plain : session.request = none := by
    obtain ⟨setup, frame, stands⟩ := accounts.stands
    rw [answer] at completes
    rcases ran : session.run store shelf with ⟨failure | verdict, final, shelved⟩
    · rw [ran] at completes
      cases completes
    · rw [ran] at completes
      cases completes
      exact request_eq_none_of_run stands ran
  rw [completes] at after
  change Accounts (told || false) _ at after
  rw [Bool.or_false] at after
  rw [Bool.eq_iff_iff]
  exact ⟨after.told (played.request.trans plain), after.shown⟩

end Accounts

/-- Behind a run that completes there is no divergence if and only if the answers to the calls
before it have told of none. -/
theorem undiverged_iff_of_completed {tape : Tape} {session : Session}
    (started : start tape = .ok session) (calls : List (Call σ)) (shelf : σ) (store : Store σ)
    {frames checksum accumulator : UInt32}
    (completes : Attempts.outcome (perform (.run store))
      (Attempts.final perform calls (session, shelf)) =
        .ok (.ended (.completed frames checksum accumulator))) :
    let after := (Attempts.final perform (calls ++ [.run store]) (session, shelf)).1
    (after.diverged = false ∧ ∀ report ∈ after.reports.toList, report.diverged = false) ↔
      ∀ answer, .ok answer ∈ Attempts.outcomes perform calls (session, shelf) →
        answer.isError = false := by
  intro after
  have begins : Accounts false (session, shelf).1 := accounts_start started
  have whole : Accounts _ after := begins.final (calls ++ [.run store])
  have known : after.diverged =
      (Attempts.outcomes perform calls (session, shelf)).any tells := by
    have before := begins.final calls
    rw [Bool.false_or] at before
    rw [← before.completed completes]
    simp only [after, Attempts.final_append, Attempts.final]
  constructor
  · rintro ⟨undiverged, -⟩ answer answered
    rw [known, List.any_eq_false] at undiverged
    exact Bool.eq_false_iff.mpr (undiverged _ answered)
  · intro silent
    have undiverged : after.diverged = false := by
      rw [known, List.any_eq_false]
      rintro (failure | answer) answered
      · exact Bool.false_ne_true
      · exact Bool.eq_false_iff.mp (silent answer answered)
    refine ⟨undiverged, fun report member => ?_⟩
    rw [whole.flag, List.any_eq_false] at undiverged
    exact Bool.eq_false_iff.mpr (undiverged report member)

def agreeing : Batch :=
  ⟨0, [⟨{}, .game (.ofChecksum 3818634013)⟩]⟩

/-- A recording of any number of frames, the first of which leads to the recorded checksum. -/
theorem opens_agreeing (name : String) (frameCount : UInt32) :
    ∃ tape, ofBytes name (recordingOf frameCount [agreeing]) = .ok tape ∧
      tape.sheet = { frameCount } ∧ ReadsBack tape [agreeing] :=
  readsBack_recordingOf name frameCount rfl (by simp [agreeing, Packet.Body.Fits])
    (by simp [agreeing, Batch.InRange, Packet.Body.InRange])

/-- A session that is stepped through its only frame, which agrees, completes undiverged. -/
theorem undiverged_iff_of_completed_agreeing :
    ∃ tape session, ofBytes "agreeing.rep" (recordingOf 1 [agreeing]) = .ok tape ∧
      start tape = .ok session ∧
      let shelf := Files.Tree.empty
      let run : Call Files.Tree := .run (Store.inFolder "")
      let after := (Attempts.final perform [.step, run] (session, shelf)).1
      (∃ checksum accumulator, Attempts.outcome (perform run)
        (Attempts.final perform [.step] (session, shelf)) =
          .ok (.ended (.completed 1 checksum accumulator))) ∧
      after.diverged = false ∧ ∀ report ∈ after.reports.toList, report.diverged = false := by
  obtain ⟨tape, opened, sheet, reads⟩ := opens_agreeing "agreeing.rep" 1
  have regular : Script.Regular ⟨{}, [agreeing]⟩ := ⟨reads.ascending, by decide⟩
  have agrees : (Script.report ⟨{}, [agreeing]⟩ 0).diverged = false := by decide +kernel
  have started := start_of_sheet tape sheet
  have count : (resume tape (.begin {}) 0).frameCount = 1 :=
    congrArg Record.MatchSheet.frameCount sheet
  obtain ⟨behind, final, outcomes, runs, -⟩ :=
    steps_run regular (aligned_start reads) (Store.inFolder "") Files.Tree.empty
  rw [count] at final outcomes runs
  have completes := Attempts.outcome_of_ok runs
  rw [← final] at completes
  refine ⟨tape, _, opened, started, ⟨_, _, completes⟩, ?_⟩
  apply (undiverged_iff_of_completed started [.step] Files.Tree.empty (Store.inFolder "")
    completes).mpr
  intro answer answered
  have told : .ok answer ∈ [Except.ok (.played (Script.report ⟨{}, [agreeing]⟩ 0))] :=
    outcomes ▸ answered
  cases List.mem_singleton.mp told
  exact agrees

/-- A session that is stepped through its only frame, which diverges, completes as well. -/
theorem completed_diverged :
    ∃ tape session, ofBytes "leaving.rep" (recordingOf 1 [leaving]) = .ok tape ∧
      start tape = .ok session ∧
      let shelf := Files.Tree.empty
      let run : Call Files.Tree := .run (Store.inFolder "")
      let after := (Attempts.final perform [.step, run] (session, shelf)).1
      (∃ checksum accumulator, Attempts.outcome (perform run)
        (Attempts.final perform [.step] (session, shelf)) =
          .ok (.ended (.completed 1 checksum accumulator))) ∧
      after.diverged = true ∧ ∃ report ∈ after.reports.toList, report.diverged = true := by
  obtain ⟨tape, opened, sheet, reads⟩ := opens_leaving "leaving.rep"
  have regular : Script.Regular ⟨{}, [leaving]⟩ := ⟨reads.ascending, by decide⟩
  have differs : (Script.report ⟨{}, [leaving]⟩ 0).diverged = true := by decide +kernel
  have started := start_of_sheet tape sheet
  have count : (resume tape (.begin {}) 0).frameCount = 1 :=
    congrArg Record.MatchSheet.frameCount sheet
  obtain ⟨behind, final, -, runs, reports⟩ :=
    steps_run regular (aligned_start reads) (Store.inFolder "") Files.Tree.empty
  rw [count] at final runs reports
  have completes := Attempts.outcome_of_ok runs
  rw [← final] at completes
  refine ⟨tape, _, opened, started, ⟨_, _, completes⟩, ?_⟩
  have after : Attempts.final perform [.step, .run (Store.inFolder "")]
      (resume tape (.begin {}) 0, Files.Tree.empty) = (behind, Files.Tree.empty) :=
    (congrArg (Attempts.final perform [.run (Store.inFolder "")]) final).trans
      (Attempts.left_of_ok runs)
  have told : Script.report ⟨{}, [leaving]⟩ 0 ∈ behind.reports.toList := by
    rw [reports]
    exact List.mem_singleton_self _
  have begins : Accounts false
      (resume tape (.begin {}) 0, Files.Tree.empty).1 := accounts_start started
  have whole := (begins.final [.step, .run (Store.inFolder "")]).flag
  rw [after] at whole ⊢
  exact ⟨whole.trans (List.any_eq_true.mpr ⟨_, told, differs⟩), _, told, differs⟩

end MatchTape.Playback
