import MatchTape.Proofs.Playback.Checking
import MatchTape.Screening.Sequence

/-!
# Which recordings count as errors

A screening counts the recordings that cannot be opened, break off, miss their checkpoint or
come to rest for a contradicted checksum.  A checkpoint that is due behind a frame that diverges
goes before the contradiction, and if it is saved the divergence is hidden: the recording is not
counted.  All other recordings with something wrong are.
-/

namespace MatchTape.Screening

open Playback Session

structure Showing where
  result : Except Failure Verdict
  session : Session

namespace Showing

def brokeOff (showing : Showing) : Bool :=
  match showing.result with
  | .error failure => Tape.breaksOff failure
  | .ok _ => false

def missedCheckpoint (showing : Showing) : Bool :=
  match showing.result with
  | .error (.checkpointSave _ _) => true
  | _ => false

def savedCheckpoint (showing : Showing) : Bool :=
  match showing.result with
  | .ok (.saved _ _) => true
  | _ => false

def diverged (showing : Showing) : Bool :=
  showing.session.reports.toList.any Report.diverged

end Showing

def isFaulty : Except Failure Showing → Bool
  | .error _ => true
  | .ok showing => showing.brokeOff || showing.missedCheckpoint || showing.diverged

/-- Whether a recording diverged but ended with its checkpoint. -/
def isHidden : Except Failure Showing → Bool
  | .error _ => false
  | .ok showing => showing.savedCheckpoint && showing.diverged

variable {σ : Type} {desk : Desk σ} {options : Options}

def play (desk : Desk σ) (options : Options) (source : String) (shelf : σ) :
    Except Failure Showing :=
  (openSession desk options source shelf).map fun session =>
    let (result, session, _) := (prepare options session).run desk.store shelf
    ⟨result, session⟩

def playAll (desk : Desk σ) (options : Options) :
    List String → Standing σ → List (Except Failure Showing)
  | [], _ => []
  | source :: sources, standing =>
      play desk options source standing.shelf ::
        playAll desk options sources (screen desk options source standing).2

/-! ## One recording -/

/-- No frame of a session that was played to its end has diverged. -/
theorem undiverged_of_completed {session final : Session} (fresh : session.reports = #[])
    (plays : session.play = .ok .completed final) :
    final.reports.toList.any Report.diverged = false := by
  obtain ⟨frames, executes, -, agrees⟩ := executes_of_playFrames plays
  rw [executes.reports, fresh, List.any_eq_false]
  intro report member
  obtain ⟨frame, listed, rfl⟩ := List.mem_map.mp member
  exact Bool.eq_false_iff.mp (agrees frame listed)

theorem diverged_of_contradicted {session final : Session} {frame expected actual : UInt32}
    (plays : session.play = .ok (.contradicted frame expected actual) final) :
    final.reports.toList.any Report.diverged = true := by
  obtain ⟨more, played, shown, -⟩ := played_ending session.framesLeft session
  rw [← Session.play, plays] at played shown
  have reports : final.reports.toList = session.reports.toList ++ more := played.reports
  rw [reports, List.any_append, shown rfl, Bool.or_true]

/-- A run of a session that is not asked to stop is not stopped.  It counts as an error exactly
if something is wrong with its recording and is not hidden. -/
theorem countsAsError_run (store : Store σ) {session : Session} (shelf : σ)
    (fresh : session.reports = #[]) (running : session.stopRaised = false) :
    let ran := session.run store shelf
    let showing : Except Failure Showing := .ok ⟨ran.1, ran.2.1⟩
    countsAsError ran.1 = (isFaulty showing && !isHidden showing) ∧ wasStopped ran.1 = false := by
  have course := ran store session shelf
  generalize session.run store shelf = result at course
  cases course with
  | outside | unsaved => exact ⟨rfl, rfl⟩
  | saved => exact ⟨(Bool.and_not_self _).symm, rfl⟩
  | played inside =>
      cases plays : Session.play session with
      | error failure final =>
          refine ⟨?_, rfl⟩
          simp only [outcome, countsAsError, isFaulty, Showing.brokeOff,
            breaksOff_of_playFrames plays, isHidden, Showing.savedCheckpoint, Bool.true_or,
            Bool.false_and, Bool.not_false, Bool.and_self]
      | ok halt final =>
          cases halt with
          | completed =>
              refine ⟨?_, rfl⟩
              change false = (final.reports.toList.any Report.diverged && true)
              rw [undiverged_of_completed fresh plays, Bool.false_and]
          | stopped => exact absurd rfl (ne_stopped_of_playFrames running plays)
          | due => exact ⟨(Bool.and_not_self _).symm, rfl⟩
          | contradicted frame expected actual =>
              refine ⟨?_, rfl⟩
              change true = (final.reports.toList.any Report.diverged && true)
              rw [diverged_of_contradicted plays, Bool.and_true]

theorem openSession_reports {source : String} {shelf : σ} {session : Session}
    (opened : openSession desk options source shelf = .ok session) : session.reports = #[] := by
  unfold openSession at opened
  split at opened
  · cases opened
  · split at opened
    · cases opened
    · obtain ⟨setup, -, rfl⟩ := start_eq opened
      rfl

/-- Unless the screening is asked to stop, it goes on behind every recording, and counts it
exactly if something is wrong with it and is not hidden. -/
theorem screen_counts (running : options.stopRaised = false) (source : String)
    (standing : Standing σ) :
    let played := play desk options source standing.shelf
    (screen desk options source standing).1.isError = (isFaulty played && !isHidden played) ∧
      (screen desk options source standing).1.ends = false := by
  cases opened : openSession desk options source standing.shelf with
  | error failure =>
      simp only [screen, play, opened, Except.map, isFaulty, isHidden, Bool.not_false,
        Bool.and_self, and_self]
  | ok session =>
      simp only [screen, play, opened, Except.map]
      have fresh := openSession_reports opened
      change (prepare options session).reports = #[] at fresh
      exact countsAsError_run desk.store standing.shelf fresh running

/-! ## All recordings -/

theorem countP_screenAll (running : options.stopRaised = false) (sources : List String)
    (standing : Standing σ) :
    (screenAll desk options sources standing).1.countP Screened.isError =
      (playAll desk options sources standing).countP fun played =>
        isFaulty played && !isHidden played := by
  induction sources generalizing standing with
  | nil => rfl
  | cons source sources ih =>
      obtain ⟨isError, goesOn⟩ := @screen_counts σ desk options running source standing
      simp only [screenAll, goesOn, Bool.false_eq_true, if_false, playAll, List.countP_cons, ih,
        isError]

theorem isFaulty_of_isHidden {played : Except Failure Showing} (hidden : isHidden played = true) :
    isFaulty played = true := by
  cases played with
  | error => rfl
  | ok showing =>
      rw [isHidden, Bool.and_eq_true] at hidden
      rw [isFaulty, hidden.2, Bool.or_true]

theorem isFaulty_and_isHidden (played : Except Failure Showing) :
    (isFaulty played && isHidden played) = isHidden played := by
  cases hides : isHidden played with
  | false => exact Bool.and_false _
  | true => rw [isFaulty_of_isHidden hides, Bool.true_and]

/-- A recording is not counted if nothing is wrong with it, or if what is wrong is hidden. -/
theorem not_counted_iff (played : Except Failure Showing) :
    ¬ (isFaulty played && !isHidden played) = true ↔ isFaulty played = isHidden played := by
  cases hides : isHidden played with
  | false => rw [Bool.not_false, Bool.and_true, Bool.not_eq_true]
  | true =>
      rw [isFaulty_of_isHidden hides]
      exact iff_of_true Bool.false_ne_true rfl

/-- What is counted and what is hidden are together all that something is wrong with. -/
theorem countP_isFaulty (played : List (Except Failure Showing)) :
    (played.countP fun one => isFaulty one && !isHidden one) + played.countP isHidden =
      played.countP isFaulty := by
  rw [List.countP_eq_countP_filter_add played isFaulty isHidden, List.countP_filter,
    List.countP_filter, Nat.add_comm]
  simp only [isFaulty_and_isHidden]

theorem exitCode_eq_zero_iff (summary : Summary) : summary.exitCode = 0 ↔ summary.errors = 0 := by
  rw [Summary.exitCode]
  split
  · next faultless => exact iff_of_true rfl faultless
  · next faulty => exact iff_of_false Nat.one_ne_zero faulty

/-- Unless the screening is asked to stop, it counts the recordings that something is wrong with,
except those whose divergence is hidden by a checkpoint; so it counts all of them if and only if
none is hidden, and it ends with the exit code 0 if and only if nothing is wrong but what is
hidden. -/
theorem errors_eq_iff_not_isHidden (running : options.stopRaised = false) (sources : List String)
    (standing : Standing σ) :
    let summary := (inSequence desk options sources standing).1.summary
    let played := playAll desk options sources standing
    summary.errors + played.countP isHidden = played.countP isFaulty ∧
      (summary.errors = played.countP isFaulty ↔ ∀ one ∈ played, isHidden one = false) ∧
      (summary.exitCode = 0 ↔ ∀ one ∈ played, isFaulty one = isHidden one) := by
  intro summary played
  have errors : summary.errors = played.countP fun one => isFaulty one && !isHidden one :=
    countP_screenAll running sources standing
  have parts : summary.errors + played.countP isHidden = played.countP isFaulty :=
    errors ▸ countP_isFaulty played
  refine ⟨parts, ?_, ?_⟩
  · have unhidden : played.countP isHidden = 0 ↔ ∀ one ∈ played, isHidden one = false := by
      simp only [List.countP_eq_zero, Bool.not_eq_true]
    rw [← unhidden]
    omega
  · rw [exitCode_eq_zero_iff, errors, List.countP_eq_zero]
    exact forall₂_congr fun one _ => not_counted_iff one

/-- A desk with the recording in which a player leaves under every name, and room for every
checkpoint. -/
def leavingDesk : Desk Unit where
  read _ _ := .ok (Tape.recordingOf 1 [leaving])
  store := { save := fun _ _ shelf => (.ok (), shelf), load := fun _ _ => .error .noRecording }

theorem openSession_leavingDesk (options : Options) (source : String) :
    ∃ tape, openSession leavingDesk options source () = .ok (resume tape (.begin {}) 0) ∧
      tape.frameCount = 1 ∧ Tape.ReadsBack tape [leaving] := by
  obtain ⟨tape, opened, sheet, reads⟩ := opens_leaving source
  refine ⟨tape, ?_, congrArg Record.MatchSheet.frameCount sheet, reads⟩
  simp only [openSession, leavingDesk, opened]
  exact start_of_sheet tape sheet

/-- The recording counts as an error if no checkpoint is asked for. -/
theorem errors_eq_iff_not_isHidden_leaving :
    let summary := (inSequence leavingDesk {} ["leaving"] ⟨.empty, ()⟩).1.summary
    summary.errors = (playAll leavingDesk {} ["leaving"] ⟨.empty, ()⟩).countP isFaulty ∧
      ¬ summary.exitCode = 0 := by
  obtain ⟨tape, opened, count, reads⟩ := openSession_leavingDesk {} "leaving"
  have regular : Script.Regular ⟨{}, [leaving]⟩ := ⟨reads.ascending, by decide⟩
  have contradicted : Script.contradicts ⟨{}, [leaving]⟩ 0 = true := by decide +kernel
  obtain ⟨final, runs, done⟩ := run_diverges leavingDesk.store () reads regular
    (count ▸ Nat.one_pos) (fun _ before => absurd before (Nat.not_lt_zero _)) rfl contradicted
  have plain : prepare {} (resume tape (.begin {}) 0) = resume tape (.begin {}) 0 := rfl
  have played : play leavingDesk {} "leaving" () =
      .ok ⟨.ok (.diverged 0 7 (Script.checksum ⟨{}, [leaving]⟩ 0)), final⟩ := by
    rw [play, opened, Except.map, plain, runs]
    rfl
  have diverged : Showing.diverged
      ⟨.ok (.diverged 0 7 (Script.checksum ⟨{}, [leaving]⟩ 0)), final⟩ = true := by
    rw [Showing.diverged, done.reports]
    exact List.any_eq_true.mpr ⟨_, List.mem_singleton_self _, contradicted⟩
  obtain ⟨-, counted, exit⟩ :=
    @errors_eq_iff_not_isHidden Unit leavingDesk {} rfl ["leaving"] ⟨.empty, ()⟩
  simp only [playAll, played] at counted exit ⊢
  constructor
  · exact counted.mpr (List.forall_mem_singleton.mpr rfl)
  · rw [exit, List.forall_mem_singleton, isFaulty, diverged, Bool.or_true]
    exact Bool.noConfusion

def askingOptions : Options :=
  { saveFrame := some 1, saveName := some "checkpoint" }

/-- The checkpoint is saved, although its frame has diverged. -/
theorem play_leaving_asking :
    ∃ after, play leavingDesk askingOptions "leaving" () =
        .ok ⟨.ok (.saved after.frame "checkpoint"), after⟩ ∧
      after.reports.toList.any Report.diverged = true := by
  obtain ⟨tape, opened, count, reads⟩ := openSession_leavingDesk askingOptions "leaving"
  let session := prepare askingOptions (resume tape (.begin {}) 0)
  have begins : World.Arena.At {} 0 session.arena := World.Arena.at_begin {}
  have current : ∀ batch ∈ [leaving], session.arena.frame ≤ batch.frame := by
    rw [begins.frame]
    decide
  obtain ⟨behind, taken, -⟩ := reads.take current
  change Tape.take session.arena.frame session.tape = .ok (some leaving) behind at taken
  obtain ⟨report, after, stepped, rfl⟩ : ∃ report after, step session = .ok report after ∧
      report = (execute (some leaving) { session with tape := behind }).1 :=
    ⟨_, _, step_of_take taken, rfl⟩
  have led : ((World.Arena.begin {}).playFrame leaving.orders).checksum ≠ 7 := by decide +kernel
  have differs :
      (execute (some leaving) { session with tape := behind }).1.diverged = true := by
    rw [diverged_execute]
    exact bne_iff_ne.mpr led.symm
  have asked : session.request = some ⟨1, "checkpoint"⟩ := rfl
  have due : after.due? = some "checkpoint" := by
    rw [due?, (onward_step stepped).request, asked]
    exact if_pos (stands_step begins stepped).frame
  have left : session.framesLeft = 1 :=
    (framesLeft_start tape {}).trans (congrArg UInt32.toNat count)
  have plays : session.play = .ok (.due "checkpoint") after := by
    rw [Session.play, left]
    exact playFrames_succ_due rfl stepped due
  have ahead : session.arena.frame < 1 := by
    rw [begins.frame]
    decide
  have inside : session.outsideRequest? = none :=
    outsideRequest?_eq_none asked ahead (count ▸ UInt32.le_refl 1)
  have runs : session.run leavingDesk.store () =
      (.ok (.saved after.frame "checkpoint"), after, ()) := run_due inside plays rfl
  refine ⟨after, ?_, ?_⟩
  · rw [play, opened, Except.map]
    change Except.ok (Showing.mk (session.run leavingDesk.store ()).1
      (session.run leavingDesk.store ()).2.1) = _
    rw [runs]
  · rw [(onward_step stepped).reports, List.any_append, List.any_cons, differs, Bool.true_or,
      Bool.or_true]

/-- The same recording does not count as an error if the checkpoint is asked for. -/
theorem errors_leaving_asking :
    let summary := (inSequence leavingDesk askingOptions ["leaving"] ⟨.empty, ()⟩).1.summary
    summary.errors = 0 ∧ summary.exitCode = 0 ∧
      (playAll leavingDesk askingOptions ["leaving"] ⟨.empty, ()⟩).countP isFaulty = 1 := by
  intro summary
  obtain ⟨after, played, diverged⟩ := play_leaving_asking
  have errors : summary.errors = 0 := by
    have counted := @countP_screenAll Unit leavingDesk askingOptions rfl ["leaving"] ⟨.empty, ()⟩
    simp only [playAll, played, isFaulty, isHidden, Showing.diverged, diverged,
      Showing.savedCheckpoint, Bool.or_true, Bool.and_self, Bool.not_true, List.countP_cons,
      List.countP_nil] at counted
    exact counted
  refine ⟨errors, if_pos errors, ?_⟩
  simp only [playAll, played, isFaulty, Showing.diverged, diverged, Bool.or_true, List.countP_cons,
    List.countP_nil, if_true]

end MatchTape.Screening
