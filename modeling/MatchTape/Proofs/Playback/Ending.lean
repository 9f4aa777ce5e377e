import MatchTape.Playback.Session
import MatchTape.Proofs.Tape.Cursor
import MatchTape.Proofs.World.Arena

/-!
# Where playing ends

Playing leaves a session behind, with a verdict or with a failure of its tape.  On the way
reports are made and none is taken back.
-/

namespace MatchTape.Playback.Session

open World Tape

variable {session : Session}

/-! ## Beginnings -/

theorem start_eq {tape : Tape} (started : start tape = .ok session) :
    ∃ setup, Setup.ofSheet tape.sheet = .ok setup ∧ session = resume tape (.begin setup) 0 := by
  unfold start at started
  split at started
  · cases started
  · next setup valid =>
      cases started
      exact ⟨setup, valid, rfl⟩

theorem framesLeft_resume {tape there : Tape} (recording : tape.SameRecording there)
    (arena : Arena) (accumulator : UInt32) :
    (resume there arena accumulator).framesLeft =
      tape.frameCount.toNat - arena.frame.toNat := by
  change there.sheet.frameCount.toNat - arena.frame.toNat = _
  rw [recording.sheet]
  rfl

theorem framesLeft_start (tape : Tape) (setup : Setup) :
    (resume tape (.begin setup) 0).framesLeft = tape.frameCount.toNat := by
  rw [framesLeft_resume (.refl tape), (Arena.at_begin setup).frame]
  rfl

theorem outsideRequest?_eq_none {request : SaveRequest} (asked : session.request = some request)
    (ahead : session.frame < request.frame) (inside : request.frame ≤ session.frameCount) :
    session.outsideRequest? = none := by
  have behind : ¬ request.frame ≤ session.frame := UInt32.not_le.mpr ahead
  have within : ¬ session.frameCount < request.frame := UInt32.not_lt.mpr inside
  rw [outsideRequest?, asked]
  simp only [Option.filter_some, behind, within, decide_false, Bool.or_false, Bool.false_eq_true,
    if_false]

theorem remaining_of_outsideRequest? {request : SaveRequest}
    (asked : session.request = some request) (granted : session.outsideRequest? = none) :
    session.frame < request.frame ∧ request.frame ≤ session.frameCount := by
  rw [outsideRequest?, asked, Option.filter_eq_none_iff] at granted
  have remaining := granted request rfl
  rw [Bool.or_eq_true, decide_eq_true_iff, decide_eq_true_iff, not_or] at remaining
  exact ⟨UInt32.not_le.mp remaining.1, UInt32.not_lt.mp remaining.2⟩

/-! ## Single frames -/

theorem step_of_take {batch : Option Batch} {after : Tape}
    (taken : Tape.take session.arena.frame session.tape = .ok batch after) :
    step session = .ok (execute batch { session with tape := after }).1
      (execute batch { session with tape := after }).2 := by
  rw [step, taken]

theorem step_of_take_error {failure : Failure}
    (failed : Tape.take session.arena.frame session.tape = .error failure session.tape) :
    step session = .error failure session := by
  rw [step, failed]

section

variable {left : Nat} {report : Report} {after : Session}

theorem step_eq_ok (stepped : step session = .ok report after) :
    ∃ batch tape, Tape.take session.arena.frame session.tape = .ok batch tape ∧
      report = (execute batch { session with tape }).1 ∧
      after = (execute batch { session with tape }).2 := by
  unfold step at stepped
  split at stepped
  · cases stepped
  · next batch tape taken =>
      cases stepped
      exact ⟨batch, tape, taken, rfl, rfl⟩

/-- A session that cannot play a frame has moved its tape and nothing else. -/
theorem step_eq_error {failure : Failure} (failed : step session = .error failure after) :
    ∃ tape, after = { session with tape } := by
  unfold step at failed
  split at failed
  · cases failed
    exact ⟨_, rfl⟩
  · cases failed

/-- A session fails to play a frame only where its tape breaks off. -/
theorem breaksOff_of_step {failure : Failure} (failed : step session = .error failure after) :
    breaksOff failure = true := by
  unfold step at failed
  split at failed
  · next taken =>
      cases failed
      exact breaksOff_of_take taken
  · cases failed

theorem stopRaised_step (stepped : step session = .ok report after) :
    after.stopRaised = session.stopRaised := by
  obtain ⟨batch, tape, -, -, rfl⟩ := step_eq_ok stepped
  rfl

theorem stands_step {setup : Setup} {frame : UInt32}
    (stands : Arena.At setup frame session.arena) (stepped : step session = .ok report after) :
    Arena.At setup (frame + 1) after.arena := by
  obtain ⟨batch, tape, -, -, rfl⟩ := step_eq_ok stepped
  exact stands.playFrame _

theorem diverged_step (stepped : step session = .ok report after) :
    after.diverged = (session.diverged || report.diverged) := by
  obtain ⟨batch, tape, -, rfl, rfl⟩ := step_eq_ok stepped
  rfl

theorem frameCount_step (stepped : step session = .ok report after) :
    after.frameCount = session.frameCount := by
  obtain ⟨batch, tape, taken, -, rfl⟩ := step_eq_ok stepped
  have same := (Tape.SameRecording.refl session.tape).take taken
  exact congrArg Record.MatchSheet.frameCount same.sheet

theorem isSome_contradicted? (stepped : step session = .ok report after) :
    report.contradicted?.isSome = report.diverged := by
  obtain ⟨batch, tape, -, rfl, -⟩ := step_eq_ok stepped
  change (if (batch.bind Batch.expected?).any _ then batch.bind Batch.expected?
    else none).isSome = (batch.bind Batch.expected?).any _
  cases batch.bind Batch.expected? with
  | none => rfl
  | some expected =>
      rw [Option.any_some]
      split
      · next differs => rw [differs, Option.isSome_some]
      · next agrees => rw [Option.isSome_none, Bool.eq_false_iff.mpr agrees]

theorem due?_eq_none (plain : session.request = none) : session.due? = none := by
  rw [due?, plain]

theorem playFrames_succ_error {failure : Failure} (running : session.stopRaised = false)
    (failed : step session = .error failure after) :
    playFrames (left + 1) session = .error failure after := by
  simp only [playFrames, running, Bool.false_eq_true, if_false, failed]

theorem playFrames_succ_due {name : String} (running : session.stopRaised = false)
    (stepped : step session = .ok report after) (due : after.due? = some name) :
    playFrames (left + 1) session = .ok (.due name) after := by
  simp only [playFrames, running, Bool.false_eq_true, if_false, stepped, due]

theorem playFrames_succ (running : session.stopRaised = false)
    (stepped : step session = .ok report after) (free : after.due? = none) :
    playFrames (left + 1) session =
      match report.contradicted? with
      | some expected => .ok (.contradicted report.frame expected report.checksum) after
      | none => playFrames left after := by
  cases contradicted : report.contradicted? <;>
    simp only [playFrames, running, Bool.false_eq_true, if_false, stepped, free, contradicted]

end

/-- The courses that playing can take: it comes to rest at once, or the next frame fails, ends
it, or lets it go on. -/
inductive Course (session : Session) : Nat → Prop where
  | completed (plays : playFrames 0 session = .ok .completed session) : Course session 0
  | stopped {left : Nat} (plays : playFrames left session = .ok .stopped session) :
      Course session left
  | failed {left : Nat} {failure : Failure} {after : Session}
      (stepped : step session = .error failure after)
      (plays : playFrames (left + 1) session = .error failure after) : Course session (left + 1)
  | due {left : Nat} {report : Report} {after : Session} {name : String}
      (stepped : step session = .ok report after) (due : after.due? = some name)
      (plays : playFrames (left + 1) session = .ok (.due name) after) : Course session (left + 1)
  | contradicted {left : Nat} {report : Report} {after : Session} {expected : UInt32}
      (stepped : step session = .ok report after) (free : after.due? = none)
      (contradicted : report.contradicted? = some expected)
      (plays : playFrames (left + 1) session =
        .ok (.contradicted report.frame expected report.checksum) after) :
      Course session (left + 1)
  | goesOn {left : Nat} {report : Report} {after : Session}
      (stepped : step session = .ok report after) (free : after.due? = none)
      (agrees : report.contradicted? = none)
      (plays : playFrames (left + 1) session = playFrames left after) : Course session (left + 1)

theorem course (left : Nat) (session : Session) : Course session left := by
  cases running : session.stopRaised with
  | true =>
      apply Course.stopped
      cases left <;> simp only [playFrames, running, if_true]
  | false =>
      cases left with
      | zero =>
          apply Course.completed
          simp only [playFrames, running, Bool.false_eq_true, if_false]
      | succ left =>
          cases stepped : step session with
          | error failure after => exact .failed stepped (playFrames_succ_error running stepped)
          | ok report after =>
              cases due : after.due? with
              | some name => exact .due stepped due (playFrames_succ_due running stepped due)
              | none =>
                  have plays := @playFrames_succ session left report after running stepped due
                  cases contradicted : report.contradicted? with
                  | some expected =>
                      rw [contradicted] at plays
                      exact .contradicted stepped due contradicted plays
                  | none =>
                      rw [contradicted] at plays
                      exact .goesOn stepped due contradicted plays

/-! ## Reports -/

/-- A session has made some more reports since it was another; it is still asked for the
same checkpoint. -/
structure Onward (more : List Report) (session after : Session) : Prop where
  reports : after.reports.toList = session.reports.toList ++ more
  request : after.request = session.request

theorem Onward.refl (session : Session) : Onward [] session session :=
  ⟨(List.append_nil _).symm, rfl⟩

theorem Onward.trans {first more : List Report} {between after : Session}
    (begins : Onward first session between) (goes : Onward more between after) :
    Onward (first ++ more) session after := by
  refine ⟨?_, goes.request.trans begins.request⟩
  rw [goes.reports, begins.reports, List.append_assoc]

theorem onward_execute (batch : Option Batch) (session : Session) (tape : Tape) :
    Onward [(execute batch { session with tape }).1] session
      (execute batch { session with tape }).2 :=
  ⟨Array.toList_push, rfl⟩

theorem onward_step {report : Report} {after : Session}
    (stepped : step session = .ok report after) : Onward [report] session after := by
  obtain ⟨batch, tape, -, rfl, rfl⟩ := step_eq_ok stepped
  exact onward_execute batch session tape

/-- A session has executed the frames of some reports since it was another: it has diverged
if it had before or if one of them has, and still stands between two frames. -/
structure Played (more : List Report) (session after : Session) : Prop
    extends Onward more session after where
  diverged : after.diverged = (session.diverged || more.any Report.diverged)
  stands : ∀ setup frame, Arena.At setup frame session.arena →
    ∃ frame, Arena.At setup frame after.arena

namespace Played

theorem nothing {after : Session} (reports : after.reports = session.reports)
    (request : after.request = session.request) (diverged : after.diverged = session.diverged)
    (arena : after.arena = session.arena) : Played [] session after := by
  refine ⟨⟨?_, request⟩, ?_, fun setup frame stands => ⟨frame, ?_⟩⟩
  · rw [reports, List.append_nil]
  · rw [diverged, List.any_nil, Bool.or_false]
  · rw [arena]
    exact stands

theorem refl (session : Session) : Played [] session session :=
  nothing rfl rfl rfl rfl

theorem trans {first more : List Report} {between after : Session}
    (begins : Played first session between) (goes : Played more between after) :
    Played (first ++ more) session after := by
  refine ⟨begins.toOnward.trans goes.toOnward, ?_, fun setup frame stands => ?_⟩
  · rw [goes.diverged, begins.diverged, List.any_append, Bool.or_assoc]
  · obtain ⟨next, there⟩ := begins.stands setup frame stands
    exact goes.stands setup next there

theorem of_step {report : Report} {after : Session} (stepped : step session = .ok report after) :
    Played [report] session after := by
  refine ⟨onward_step stepped, ?_, fun setup frame stands => ⟨_, stands_step stands stepped⟩⟩
  rw [diverged_step stepped, List.any_cons, List.any_nil, Bool.or_false]

theorem of_step_error {failure : Failure} {after : Session}
    (failed : step session = .error failure after) : Played [] session after := by
  obtain ⟨tape, rfl⟩ := step_eq_error failed
  exact nothing rfl rfl rfl rfl

end Played

/-! ## Endings -/

def ending : EStateM.Result Failure Session Halt → Session
  | .ok _ session => session
  | .error _ session => session

def outcome : EStateM.Result Failure Session Halt → Except Failure Verdict
  | .ok halt session => .ok (session.verdict halt)
  | .error failure _ => .error failure

def contradicts : EStateM.Result Failure Session Halt → Bool
  | .ok (.contradicted _ _ _) _ => true
  | _ => false

/-- Playing makes reports and takes none back.  It comes to rest for a contradicted checksum
only if a frame has diverged, and always then if no checkpoint is asked for. -/
theorem played_ending (left : Nat) (session : Session) :
    ∃ more, Played more session (ending (playFrames left session)) ∧
      (contradicts (playFrames left session) = true → more.any Report.diverged = true) ∧
      (session.request = none → more.any Report.diverged = true →
        contradicts (playFrames left session) = true) := by
  induction left generalizing session with
  | zero =>
      cases course 0 session with
      | completed plays | stopped plays =>
          rw [plays]
          exact ⟨[], .refl session, id, fun _ => id⟩
  | succ left ih =>
      cases course (left + 1) session with
      | stopped plays =>
          rw [plays]
          exact ⟨[], .refl session, id, fun _ => id⟩
      | failed stepped plays =>
          rw [plays]
          exact ⟨[], .of_step_error stepped, id, fun _ => id⟩
      | @due _ report after name stepped due plays =>
          rw [plays]
          refine ⟨[report], .of_step stepped, (absurd · Bool.false_ne_true), fun plain => ?_⟩
          rw [due?_eq_none ((onward_step stepped).request.trans plain)] at due
          cases due
      | @contradicted _ report after expected stepped free contradicted plays =>
          have diverged := isSome_contradicted? stepped
          rw [contradicted, Option.isSome_some] at diverged
          rw [plays]
          refine ⟨[report], .of_step stepped, fun _ => ?_, fun _ _ => rfl⟩
          rw [List.any_cons, ← diverged, Bool.true_or]
      | @goesOn _ report after stepped free agrees plays =>
          have fine := isSome_contradicted? stepped
          rw [agrees, Option.isSome_none] at fine
          obtain ⟨more, goes, shown, told⟩ := ih after
          have any : ([report] ++ more).any Report.diverged = more.any Report.diverged := by
            rw [List.any_append, List.any_cons, ← fine, List.any_nil, Bool.or_self,
              Bool.false_or]
          rw [plays]
          refine ⟨[report] ++ more, (Played.of_step stepped).trans goes, ?_, fun plain => ?_⟩
          · rw [any]
            exact shown
          · rw [any]
            exact told ((onward_step stepped).request.trans plain)

theorem onward_ending (left : Nat) (session : Session) :
    ∃ more, Onward more session (ending (playFrames left session)) := by
  obtain ⟨more, played, -⟩ := played_ending left session
  exact ⟨more, played.toOnward⟩

/-- The report of a frame is still there when playing ends. -/
theorem mem_reports_ending {left : Nat} {report : Report} {after : Session}
    (running : session.stopRaised = false) (stepped : step session = .ok report after) :
    report ∈ (ending (playFrames (left + 1) session)).reports.toList := by
  have told : report ∈ after.reports.toList := by
    rw [(onward_step stepped).reports]
    exact List.mem_append_right _ (List.mem_singleton_self report)
  cases due : after.due? with
  | some name =>
      rw [playFrames_succ_due running stepped due]
      exact told
  | none =>
      rw [playFrames_succ running stepped due]
      split
      · exact told
      · obtain ⟨more, goes⟩ := onward_ending left after
        rw [goes.reports]
        exact List.mem_append_left _ told

/-- Playing fails only where the tape breaks off. -/
theorem breaksOff_of_playFrames {left : Nat} {failure : Failure} {after : Session}
    (plays : playFrames left session = .error failure after) : breaksOff failure = true := by
  induction left generalizing session with
  | zero =>
      cases course 0 session with
      | completed rests | stopped rests => rw [rests] at plays; cases plays
  | succ left ih =>
      cases course (left + 1) session with
      | stopped rests | due _ _ rests | contradicted _ _ _ rests =>
          rw [rests] at plays
          cases plays
      | failed stepped rests =>
          rw [rests] at plays
          cases plays
          exact breaksOff_of_step stepped
      | goesOn _ _ _ goes => exact ih (goes ▸ plays)

/-- A session that is not asked to stop never comes to rest for that. -/
theorem ne_stopped_of_playFrames {left : Nat} {halt : Halt} {final : Session}
    (running : session.stopRaised = false) (plays : playFrames left session = .ok halt final) :
    halt ≠ .stopped := by
  rintro rfl
  induction left generalizing session with
  | zero =>
      simp only [playFrames, running, Bool.false_eq_true, if_false] at plays
      cases plays
  | succ left ih =>
      cases stepped : step session with
      | error failure after =>
          rw [playFrames_succ_error running stepped] at plays
          cases plays
      | ok report after =>
          cases due : after.due? with
          | some name =>
              rw [playFrames_succ_due running stepped due] at plays
              cases plays
          | none =>
              rw [playFrames_succ running stepped due] at plays
              split at plays
              · cases plays
              · exact ih ((stopRaised_step stepped).trans running) plays

/-- A session that is not asked for a checkpoint never comes to rest for one. -/
theorem ne_due_of_playFrames {left : Nat} {halt : Halt} {final : Session}
    (plain : session.request = none) (plays : playFrames left session = .ok halt final)
    (name : String) : halt ≠ .due name := by
  rintro rfl
  induction left generalizing session with
  | zero =>
      cases course 0 session with
      | completed rests | stopped rests => rw [rests] at plays; cases plays
  | succ left ih =>
      cases course (left + 1) session with
      | stopped rests | failed _ rests | contradicted _ _ _ rests =>
          rw [rests] at plays
          cases plays
      | due stepped due =>
          rw [due?_eq_none ((onward_step stepped).request.trans plain)] at due
          cases due
      | goesOn stepped _ _ goes =>
          exact ih ((onward_step stepped).request.trans plain) (goes ▸ plays)

/-- A session that is asked for a checkpoint ahead comes to rest at its frame at the latest,
and never at the end of the tape. -/
theorem ne_completed_of_playFrames {left : Nat} {halt : Halt} {final : Session} {setup : Setup}
    {request : SaveRequest} (stands : Arena.At setup session.frame session.arena)
    (asked : session.request = some request) (ahead : session.frame < request.frame)
    (inside : request.frame.toNat ≤ session.frame.toNat + left)
    (plays : playFrames left session = .ok halt final) : halt ≠ .completed := by
  rintro rfl
  rw [UInt32.lt_iff_toNat_lt] at ahead
  induction left generalizing session with
  | zero => omega
  | succ left ih =>
      cases course (left + 1) session with
      | stopped rests | failed _ rests | due _ _ rests | contradicted _ _ _ rests =>
          rw [rests] at plays
          cases plays
      | @goesOn _ report after stepped free _ goes =>
          have further := stands_step stands stepped
          have frame : after.frame = session.frame + 1 := further.frame
          have still : after.request = some request := (onward_step stepped).request.trans asked
          have missed : after.frame ≠ request.frame := by
            intro reached
            rw [due?, still] at free
            simp only [reached, if_true] at free
            cases free
          -- The frame does not wrap, as the requested one lies above it.
          have count : after.frame.toNat = session.frame.toNat + 1 := by
            rw [frame, UInt32.toNat_add]
            exact Nat.mod_eq_of_lt (Nat.lt_of_le_of_lt ahead request.frame.toNat_lt)
          have before : after.frame.toNat < request.frame.toNat := by
            have apart := mt UInt32.toNat_inj.mp missed
            omega
          rw [goes] at plays
          exact ih (frame ▸ further) still before (by omega) plays

/-- A run within reach of its checkpoint goes as playing does, unless it comes to save it. -/
theorem run_of_play {σ : Type} (store : Store σ) (shelf : σ)
    (inside : session.outsideRequest? = none)
    (free : ∀ name final, play session ≠ .ok (.due name) final) :
    run store session shelf = (outcome (play session), ending (play session), shelf) := by
  cases plays : play session with
  | error failure final => rw [run, inside, plays]; rfl
  | ok halt final =>
      rw [run, inside, plays]
      cases halt with
      | due name => exact absurd plays (free name final)
      | _ => rfl

/-- A session that is not asked for a checkpoint runs as it plays. -/
theorem run_plain {σ : Type} (store : Store σ) (shelf : σ) (plain : session.request = none) :
    run store session shelf = (outcome (play session), ending (play session), shelf) := by
  have inside : session.outsideRequest? = none := by rw [outsideRequest?, plain]; rfl
  apply run_of_play store shelf inside
  intro name final plays
  exact ne_due_of_playFrames plain plays name rfl

/-- A session that comes to the frame of a checkpoint saves it. -/
theorem run_due {σ : Type} {store : Store σ} {shelf after : σ} {name : String}
    {final : Session} (inside : session.outsideRequest? = none)
    (plays : play session = .ok (.due name) final)
    (saves : store.save name final.checkpoint shelf = (.ok (), after)) :
    run store session shelf = (.ok (.saved final.frame name), final, after) := by
  rw [run, inside, plays]
  simp only [saves, verdict]

theorem run_due_error {σ : Type} {store : Store σ} {shelf after : σ} {name : String}
    {final : Session} {cause : Unsaved} (inside : session.outsideRequest? = none)
    (plays : play session = .ok (.due name) final)
    (refuses : store.save name final.checkpoint shelf = (.error cause, after)) :
    run store session shelf = (.error (.checkpointSave name cause), final, after) := by
  rw [run, inside, plays]
  simp only [refuses]

inductive Ran {σ : Type} (session : Session) (shelf : σ) :
    Except Failure Verdict × Session × σ → Prop where
  | outside {request : SaveRequest} (outside : session.outsideRequest? = some request) :
      Ran session shelf (.error (session.outsideFailure request), session, shelf)
  | played (inside : session.outsideRequest? = none) :
      Ran session shelf (outcome (play session), ending (play session), shelf)
  | saved {name : String} {final : Session} (plays : play session = .ok (.due name) final)
      (shelved : σ) : Ran session shelf (.ok (.saved final.frame name), final, shelved)
  | unsaved {name : String} {final : Session} (plays : play session = .ok (.due name) final)
      (cause : Unsaved) (shelved : σ) :
      Ran session shelf (.error (.checkpointSave name cause), final, shelved)

theorem ran {σ : Type} (store : Store σ) (session : Session) (shelf : σ) :
    Ran session shelf (run store session shelf) := by
  cases inside : session.outsideRequest? with
  | some request =>
      rw [run, inside]
      exact .outside inside
  | none =>
      by_cases due : ∃ name final, play session = .ok (.due name) final
      · obtain ⟨name, final, plays⟩ := due
        cases saves : store.save name final.checkpoint shelf with
        | mk result shelved =>
            cases result with
            | ok =>
                rw [run_due inside plays saves]
                exact .saved plays shelved
            | error cause =>
                rw [run_due_error inside plays saves]
                exact .unsaved plays cause shelved
      · rw [run_of_play store shelf inside fun name final plays => due ⟨name, final, plays⟩]
        exact .played inside

/-- A run that completes is within reach of its checkpoint and has played to the end of the
tape. -/
theorem play_of_run {σ : Type} {store : Store σ} {shelf shelved : σ} {after : Session}
    {frames checksum accumulator : UInt32}
    (completes : run store session shelf =
      (.ok (.completed frames checksum accumulator), after, shelved)) :
    session.outsideRequest? = none ∧ play session = .ok .completed after := by
  have course := ran store session shelf
  rw [completes] at course
  generalize result : Except.ok (Verdict.completed frames checksum accumulator) = verdict
    at course
  cases course with
  | outside | saved | unsaved => cases result
  | played inside =>
      refine ⟨inside, ?_⟩
      cases plays : play session with
      | error failure final =>
          rw [plays] at result
          cases result
      | ok halt final =>
          rw [plays, outcome] at result
          cases halt with
          | completed => rfl
          | stopped | due | contradicted => cases result

theorem request_eq_none_of_run {σ : Type} {store : Store σ} {shelf shelved : σ} {after : Session}
    {setup : Setup} {frame frames checksum accumulator : UInt32}
    (stands : Arena.At setup frame session.arena)
    (completes : run store session shelf =
      (.ok (.completed frames checksum accumulator), after, shelved)) :
    session.request = none := by
  obtain rfl : session.frame = frame := stands.frame
  obtain ⟨inside, plays⟩ := play_of_run completes
  cases asked : session.request with
  | none => rfl
  | some request =>
      obtain ⟨ahead, within⟩ := remaining_of_outsideRequest? asked inside
      rw [UInt32.le_iff_toNat_le] at within
      have reach : request.frame.toNat ≤ session.frame.toNat + session.framesLeft := by
        rw [framesLeft]
        omega
      exact absurd rfl (ne_completed_of_playFrames stands asked ahead reach plays)

end MatchTape.Playback.Session
