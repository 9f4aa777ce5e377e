import MatchTape.Proofs.Digest
import MatchTape.Proofs.Playback.Interruption

/-!
# Accumulated checksums

Whatever is asked of a session, its accumulator is what the checksums of all frames that it has
reported have been folded to.  So the accumulators of two playbacks that complete with equally
many frames tell whether there is exactly one frame whose checksums differ.
-/

namespace MatchTape.Playback

open World Tape

namespace Session

variable {start : UInt32} {earlier : List UInt32} {session after : Session}

def checksums (session : Session) : List UInt32 :=
  session.reports.toList.map Report.checksum

theorem checksums_step {report : Report} (stepped : step session = .ok report after) :
    after.checksums = session.checksums ++ [report.checksum] := by
  rw [checksums, (onward_step stepped).reports, List.map_append]
  rfl

theorem accumulator_step {report : Report} (stepped : step session = .ok report after) :
    after.accumulator = Digest.Fold.step session.accumulator report.checksum := by
  obtain ⟨batch, tape, -, rfl, rfl⟩ := step_eq_ok stepped
  simp only [execute]

/-- The checksums of earlier frames, and then of all frames that a session has reported, have been
folded from a start into its accumulator. -/
def Folds (start : UInt32) (earlier : List UInt32) (session : Session) : Prop :=
  session.accumulator = Digest.Fold.checksums start (earlier ++ session.checksums)

/-- A session goes on with what earlier frames have been folded to. -/
theorem folds_resume (start : UInt32) (earlier : List UInt32) (tape : Tape) (arena : Arena) :
    Folds start earlier (resume tape arena (Digest.Fold.checksums start earlier)) := by
  have fresh : (resume tape arena (Digest.Fold.checksums start earlier)).checksums = [] := rfl
  rw [Folds, fresh, List.append_nil]
  rfl

namespace Folds

theorem still (folds : Folds start earlier session) (reports : after.reports = session.reports)
    (accumulator : after.accumulator = session.accumulator) : Folds start earlier after := by
  rw [Folds, accumulator, checksums, reports]
  exact folds

/-- A frame that is played is reported, and its checksum is folded behind the others. -/
theorem step {report : Report} (folds : Folds start earlier session)
    (stepped : Session.step session = .ok report after) : Folds start earlier after := by
  rw [Folds, accumulator_step stepped, checksums_step stepped, ← List.append_assoc,
    Digest.Fold.checksums_concat, ← folds]

theorem step_error {failure : Failure} (folds : Folds start earlier session)
    (failed : Session.step session = .error failure after) : Folds start earlier after := by
  obtain ⟨tape, rfl⟩ := step_eq_error failed
  exact folds.still rfl rfl

theorem ending (folds : Folds start earlier session) (left : Nat) :
    Folds start earlier (Session.ending (playFrames left session)) := by
  induction left generalizing session with
  | zero =>
      cases course 0 session with
      | completed plays | stopped plays =>
          rw [plays]
          exact folds
  | succ left ih =>
      cases course (left + 1) session with
      | stopped plays =>
          rw [plays]
          exact folds
      | failed stepped plays =>
          rw [plays]
          exact folds.step_error stepped
      | due stepped _ plays | contradicted stepped _ _ plays =>
          rw [plays]
          exact folds.step stepped
      | goesOn stepped _ _ plays =>
          rw [plays]
          exact ih (folds.step stepped)

theorem run {σ : Type} (folds : Folds start earlier session) (store : Store σ) (shelf : σ) :
    Folds start earlier (Session.run store session shelf).2.1 := by
  have ended := folds.ending session.framesLeft
  have course := ran store session shelf
  generalize Session.run store session shelf = result at course
  cases course with
  | outside => exact folds
  | played => exact ended
  | saved plays | unsaved plays =>
      rw [← play, plays] at ended
      exact ended

/-- A call folds the checksums of the frames that it plays, and no others. -/
theorem perform {σ : Type} (folds : Folds start earlier session) (call : Call σ) (shelf : σ) :
    Folds start earlier (Attempts.left (Playback.perform call) (session, shelf)).1 := by
  cases call with
  | step =>
      cases stepped : Session.step session with
      | ok report after =>
          rw [Attempts.left_of_ok (perform_step stepped shelf)]
          exact folds.step stepped
      | error failure after =>
          rw [Attempts.left_of_error (perform_step_error stepped shelf)]
          exact folds.step_error stepped
  | run store =>
      rw [(perform_run store session shelf).2]
      exact folds.run store shelf
  | request | raiseStop | lowerStop => exact folds.still rfl rfl

theorem final {σ : Type} (folds : Folds start earlier session) (calls : List (Call σ))
    (shelf : σ) :
    Folds start earlier (Attempts.final Playback.perform calls (session, shelf)).1 :=
  Attempts.final_induction (motive := fun state : Session × σ => Folds start earlier state.1)
    (fun call state folds => folds.perform call state.2) calls folds

end Folds

theorem accumulator_of_run {σ : Type} {store : Store σ} {shelf shelved : σ}
    {frames checksum accumulator : UInt32}
    (completes : Session.run store session shelf =
      (.ok (.completed frames checksum accumulator), after, shelved)) :
    after.accumulator = accumulator := by
  obtain ⟨inside, plays⟩ := play_of_run completes
  have goes := run_of_play store shelf inside fun name final due => by
    rw [plays] at due
    cases due
  rw [plays, completes] at goes
  cases goes
  rfl

end Session

/-! ## Playbacks that complete -/

/-- A playback has completed with an accumulator, and has led to some checksums, frame by frame.
It went on from what earlier frames had been folded to, or from nothing; it was called upon in any
way, and then a run of it completed. -/
inductive Completes (start : UInt32) : List UInt32 → UInt32 → Prop where
  | run {σ : Type} (earlier : List UInt32) (tape : Tape) (arena : Arena) (calls : List (Call σ))
      (shelf : σ) (store : Store σ) {session after : Session} {before shelved : σ}
      {frames checksum accumulator : UInt32}
      (called : Attempts.final perform calls
        (Session.resume tape arena (Digest.Fold.checksums start earlier), shelf) =
          (session, before))
      (completes : session.run store before =
        (.ok (.completed frames checksum accumulator), after, shelved)) :
      Completes start (earlier ++ after.checksums) accumulator

namespace Completes

variable {start accumulator : UInt32} {checksums : List UInt32}

theorem accumulator_eq (completes : Completes start checksums accumulator) :
    accumulator = Digest.Fold.checksums start checksums := by
  cases completes with
  | @run _ earlier tape arena calls shelf store _ _ before _ _ _ _ called completes =>
      have folds := (Session.folds_resume start earlier tape arena).final calls shelf
      rw [called] at folds
      have ended := folds.run store before
      rw [completes] at ended
      rw [← Session.accumulator_of_run completes]
      exact ended

/-- The run of a recording whose checksums are never contradicted. -/
theorem of_script {tape : Tape} {frameCount : UInt32} {batches : List Batch} {setup : Setup}
    (count : tape.frameCount = frameCount) (reads : ReadsBack tape batches)
    (regular : Script.Regular ⟨setup, batches⟩)
    (agrees : ∀ frame < frameCount.toNat, Script.contradicts ⟨setup, batches⟩ frame = false) :
    Completes 0 ((List.range frameCount.toNat).map (Script.checksum ⟨setup, batches⟩))
      (Script.accumulator ⟨setup, batches⟩ frameCount.toNat) := by
  subst count
  obtain ⟨final, runs, done⟩ := Session.run_completes (Store.inFolder "") Files.Tree.empty reads
    regular agrees
  have told : final.checksums =
      (List.range tape.frameCount.toNat).map (Script.checksum ⟨setup, batches⟩) := by
    rw [Session.checksums, done.reports, List.map_map]
    simp only [Function.comp_def, Script.report]
  have whole : Completes 0 ([] ++ final.checksums) _ :=
    run [] tape (.begin setup) [] Files.Tree.empty (Store.inFolder "") rfl runs
  rwa [List.nil_append, told] at whole

end Completes

/-- Checksums that differ in exactly one position are folded to different accumulators, whatever
these start from.  So two playbacks that have folded equally many frames cannot complete with the
same accumulator if their checksums differ in exactly one frame. -/
theorem accumulators_ne_of_single_frame (start : UInt32) {first second : List UInt32}
    (length : first.length = second.length) (differ : DifferOnce first second) :
    Digest.Fold.checksums start first ≠ Digest.Fold.checksums start second ∧
      ∀ accumulator, Completes start first accumulator → ¬ Completes start second accumulator := by
  have apart := Digest.Fold.checksums_ne differ length start
  refine ⟨apart, fun accumulator completes completesOther => apart ?_⟩
  rw [← completes.accumulator_eq, ← completesOther.accumulator_eq]

def passing : List Batch :=
  [⟨0, [⟨{}, .game ⟨Arena.createCode, [.location .zero .zero .zero]⟩⟩]⟩,
    ⟨1, [⟨{ frame := 1 }, .playerLeave 0⟩]⟩]

theorem opens_passing :
    ∃ tape, ofBytes "passing.rep" (recordingOf 2 passing) = .ok tape ∧
      tape.sheet = { frameCount := 2 } ∧ ReadsBack tape passing :=
  readsBack_recordingOf "passing.rep" 2 rfl (by simp [passing, Packet.Body.Fits])
    (by simp [passing, Batch.InRange, Packet.Body.InRange])

/-- Two frames in which a walker comes and goes lead to the same arena as two frames in which
nothing happens, but for the next id.  Their checksums differ in the first frame alone, and still
the playbacks complete with different accumulators. -/
theorem accumulators_ne_of_single_frame_passing :
    let passes : List UInt32 := [1111146708, 2949295510]
    let waits : List UInt32 := [3818634013, 2949295510]
    passes.length = waits.length ∧ DifferOnce passes waits ∧
      Digest.Fold.checksums 0 passes ≠ Digest.Fold.checksums 0 waits ∧
      ∃ accumulator other, Completes 0 passes accumulator ∧ Completes 0 waits other ∧
        ¬ Completes 0 waits accumulator := by
  intro passes waits
  obtain ⟨tape, -, sheet, reads⟩ := opens_passing
  obtain ⟨waiting, -, sheetWaiting, readsWaiting⟩ := opens_agreeing "waiting.rep" 2
  have count : tape.frameCount = 2 := congrArg Record.MatchSheet.frameCount sheet
  have countWaiting : waiting.frameCount = 2 := congrArg Record.MatchSheet.frameCount sheetWaiting
  have first : Completes 0 ((List.range 2).map (Script.checksum ⟨{}, passing⟩))
      (Script.accumulator ⟨{}, passing⟩ 2) :=
    .of_script count reads ⟨reads.ascending, by decide⟩ (by decide +kernel)
  have second : Completes 0 ((List.range 2).map (Script.checksum ⟨{}, [agreeing]⟩))
      (Script.accumulator ⟨{}, [agreeing]⟩ 2) :=
    .of_script countWaiting readsWaiting ⟨readsWaiting.ascending, by decide⟩ (by decide +kernel)
  have led : (List.range 2).map (Script.checksum ⟨{}, passing⟩) = passes := by decide +kernel
  have ledWaiting : (List.range 2).map (Script.checksum ⟨{}, [agreeing]⟩) = waits := by
    decide +kernel
  have length : passes.length = waits.length := rfl
  have differ : DifferOnce passes waits := .of_ne (by decide) [] [2949295510]
  obtain ⟨apart, never⟩ := accumulators_ne_of_single_frame 0 length differ
  rw [led] at first
  rw [ledWaiting] at second
  exact ⟨length, differ, apart, _, _, first, second, never _ first⟩

end MatchTape.Playback
