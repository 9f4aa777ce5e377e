import MatchTape.Proofs.Playback.Calls

/-!
# Which recorded checksums are checked

A batch may report a checksum more than once, anywhere among its commands.  A frame is held
against the last report only, so that it diverges whenever one of them differs, unless the
last one agrees.  A run that completes has therefore reproduced all recorded checksums, unless
a frame of it hides one that differs behind a last one that agrees.
-/

namespace MatchTape.Playback.Session

open Tape

def recorded (batch : Option Batch) : List UInt32 :=
  batch.elim [] fun batch => batch.commands.filterMap Packet.Command.checksum?

/-- One of the recorded checksums differs from the one a frame leads to, but the last agrees. -/
def Hides (batch : Option Batch) (checksum : UInt32) : Prop :=
  (recorded batch).getLast? = some checksum ∧ ∃ other ∈ recorded batch, other ≠ checksum

/-- A session has executed frames and has become another: for each of them the batch that its
tape gave, and the report that was made. -/
inductive Executes : Session → List (Option Batch × Report) → Session → Prop where
  | nothing (session : Session) : Executes session [] session
  | frame {session after : Session} {batch : Option Batch} {tape : Tape}
      {frames : List (Option Batch × Report)}
      (taken : Tape.take session.frame session.tape = .ok batch tape)
      (others : Executes (execute batch { session with tape }).2 frames after) :
      Executes session ((batch, (execute batch { session with tape }).1) :: frames) after

variable {session after : Session}

/-! ## Single frames -/

/-- Of several recorded checksums the last one is expected. -/
theorem bind_expected? (batch : Option Batch) :
    batch.bind Batch.expected? = (recorded batch).getLast? := by
  cases batch <;> rfl

/-- To look at the last member only is to look at all, unless it agrees and another differs. -/
theorem getLast?_differs_iff {α : Type} [DecidableEq α] (members : List α) (value : α) :
    ((members.getLast?.any (· != value) = true ↔ ∃ member ∈ members, member ≠ value) ↔
      ¬ (members.getLast? = some value ∧ ∃ member ∈ members, member ≠ value)) := by
  cases last : members.getLast? with
  | none =>
      rw [List.getLast?_eq_none_iff] at last
      subst last
      simp only [Option.any_none, Bool.false_eq_true, List.not_mem_nil, false_and, exists_false,
        reduceCtorEq, not_false_eq_true]
  | some final =>
      have member : final ∈ members := List.mem_of_getLast? last
      rw [Option.any_some, bne_iff_ne, Option.some.injEq]
      by_cases agrees : final = value
      · simp only [agrees, ne_eq, not_true_eq_false, false_iff, true_and]
      · exact iff_of_true (iff_of_true agrees ⟨final, member, agrees⟩) (agrees ·.1)

theorem checksum_execute (batch : Option Batch) (session : Session) :
    (execute batch session).1.checksum = (execute batch session).2.arena.checksum := by
  simp only [execute]

theorem diverged_execute (batch : Option Batch) (session : Session) :
    (execute batch session).1.diverged =
      (recorded batch).getLast?.any (· != (execute batch session).1.checksum) := by
  rw [← bind_expected?]
  simp only [execute]

/-- A frame diverges exactly if a recorded checksum differs, unless it hides one. -/
theorem diverged_execute_iff (batch : Option Batch) (session : Session) :
    ((execute batch session).1.diverged = true ↔
        ∃ checksum ∈ recorded batch, checksum ≠ (execute batch session).1.checksum) ↔
      ¬ Hides batch (execute batch session).1.checksum := by
  rw [diverged_execute, Hides]
  generalize (execute batch session).1.checksum = checksum
  exact getLast?_differs_iff (recorded batch) checksum

/-! ## Runs -/

namespace Executes

variable {frames : List (Option Batch × Report)}

/-- Every frame that is executed is reported. -/
theorem reports (executes : Executes session frames after) :
    after.reports.toList = session.reports.toList ++ frames.map Prod.snd := by
  induction executes with
  | nothing session => rw [List.map_nil, List.append_nil]
  | @frame session after batch tape frames taken others ih =>
      rw [ih, (onward_execute batch session tape).reports, List.append_assoc, List.map_cons,
        List.singleton_append]

/-- If no frame has diverged, all recorded checksums are reproduced, unless one is hidden. -/
theorem reproduces_iff (executes : Executes session frames after)
    (agrees : ∀ frame ∈ frames, frame.2.diverged = false) :
    (∀ frame ∈ frames, ∀ checksum ∈ recorded frame.1, checksum = frame.2.checksum) ↔
      ∀ frame ∈ frames, ¬ Hides frame.1 frame.2.checksum := by
  induction executes with
  | nothing => exact iff_of_true (fun _ => nofun) (fun _ => nofun)
  | @frame session after batch tape frames taken others ih =>
      rw [List.forall_mem_cons] at agrees
      have single := diverged_execute_iff batch { session with tape }
      rw [agrees.1] at single
      rw [List.forall_mem_cons, List.forall_mem_cons, ih agrees.2, ← single]
      simp only [Bool.false_eq_true, false_iff, not_exists, not_and, ne_eq, not_not]

end Executes

/-- Playing that comes to the end of the tape has executed all frames that were left, and none
of them has diverged. -/
theorem executes_of_playFrames {left : Nat}
    (plays : playFrames left session = .ok .completed after) :
    ∃ frames, Executes session frames after ∧ frames.length = left ∧
      ∀ frame ∈ frames, frame.2.diverged = false := by
  induction left generalizing session with
  | zero =>
      cases course 0 session with
      | completed rests =>
          rw [rests] at plays
          cases plays
          exact ⟨[], .nothing _, rfl, fun _ => nofun⟩
      | stopped rests =>
          rw [rests] at plays
          cases plays
  | succ left ih =>
      cases course (left + 1) session with
      | stopped rests | failed _ rests | due _ _ rests | contradicted _ _ _ rests =>
          rw [rests] at plays
          cases plays
      | goesOn stepped _ agrees goes =>
          rw [goes] at plays
          obtain ⟨frames, others, length, fine⟩ := ih plays
          have undiverged := isSome_contradicted? stepped
          rw [agrees, Option.isSome_none] at undiverged
          obtain ⟨batch, tape, taken, rfl, rfl⟩ := step_eq_ok stepped
          refine ⟨_, .frame taken others, congrArg (· + 1) length, ?_⟩
          exact List.forall_mem_cons.mpr ⟨undiverged.symm, fine⟩

theorem run_of_step {σ : Type} (store : Store σ) (shelf : σ) {report : Report}
    (plain : session.request = none) (running : session.stopRaised = false)
    (single : session.framesLeft = 1) (stepped : step session = .ok report after)
    (agrees : report.diverged = false) :
    run store session shelf =
      (.ok (.completed after.frame after.arena.checksum after.accumulator), after, shelf) := by
  have still : after.stopRaised = false := by
    obtain ⟨batch, tape, -, -, rfl⟩ := step_eq_ok stepped
    exact running
  have free := due?_eq_none ((onward_step stepped).request.trans plain)
  have plays : play session = .ok .completed after := by
    rw [play, single, playFrames_succ running stepped free, Report.contradicted?, agrees]
    simp only [playFrames, still, Bool.false_eq_true, if_false]
  rw [run_plain store shelf plain, plays, outcome, ending, verdict]

/-- A frame that is executed diverges if and only if a checksum recorded for it differs from the
one it leads to, and a run that completes has reproduced every checksum recorded for the frames
that were left; both fail for exactly those frames that hide a checksum. -/
theorem checks_iff_not_hides {σ : Type} (store : Store σ) (session : Session) (shelf : σ) :
    (∀ report after, step session = .ok report after →
      ∃ batch tape, Tape.take session.frame session.tape = .ok batch tape ∧
        report.checksum = after.arena.checksum ∧
        ((report.diverged = true ↔ ∃ checksum ∈ recorded batch, checksum ≠ report.checksum) ↔
          ¬ Hides batch report.checksum)) ∧
    (∀ frames checksum accumulator after shelved,
      run store session shelf = (.ok (.completed frames checksum accumulator), after, shelved) →
      ∃ played, Executes session played after ∧ played.length = session.framesLeft ∧
        after.reports.toList = session.reports.toList ++ played.map Prod.snd ∧
        ((∀ frame ∈ played, ∀ checksum ∈ recorded frame.1, checksum = frame.2.checksum) ↔
          ∀ frame ∈ played, ¬ Hides frame.1 frame.2.checksum)) := by
  constructor
  · intro report after stepped
    obtain ⟨batch, tape, taken, rfl, rfl⟩ := step_eq_ok stepped
    exact ⟨batch, tape, taken, checksum_execute _ _, diverged_execute_iff _ _⟩
  · intro frames checksum accumulator after shelved completes
    obtain ⟨played, executes, length, agrees⟩ := executes_of_playFrames (play_of_run completes).2
    exact ⟨played, executes, length, executes.reports, executes.reproduces_iff agrees⟩

/-- The only frame of a recording leads to the checksum that is recorded for it: stepping does not
diverge, and a run has reproduced the checksums of all frames. -/
theorem checks_iff_not_hides_agreeing :
    ∃ tape session, ofBytes "agreeing.rep" (recordingOf 1 [agreeing]) = .ok tape ∧
      start tape = .ok session ∧
      (∃ report after, step session = .ok report after ∧
        (report.diverged = true ↔
          ∃ checksum ∈ recorded (some agreeing), checksum ≠ report.checksum)) ∧
      ∃ checksum accumulator after played,
        run (Store.inFolder "") session Files.Tree.empty =
          (.ok (.completed 1 checksum accumulator), after, Files.Tree.empty) ∧
        Executes session played after ∧ played.length = 1 ∧
        ∀ frame ∈ played, ∀ checksum ∈ recorded frame.1, checksum = frame.2.checksum := by
  obtain ⟨tape, opened, sheet, reads⟩ := opens_agreeing "agreeing.rep" 1
  have single : (resume tape (.begin {}) 0).framesLeft = 1 := framesLeft_of_sheet tape sheet
  have aligned : Aligned ⟨{}, [agreeing]⟩ 0 (resume tape (.begin {}) 0) := aligned_start reads
  obtain ⟨behind, taken, -⟩ := aligned.take (by decide)
  obtain ⟨after, stepped, done⟩ := aligned.step ⟨reads.ascending, by decide⟩ (by decide)
  have unhidden : ∀ checksum, ¬ Hides (some agreeing) checksum := by
    rintro checksum ⟨last, other, member, differs⟩
    have only : recorded (some agreeing) = [3818634013] := by decide
    rw [only] at last member
    exact differs ((List.mem_singleton.mp member).trans (Option.some.inj last))
  have agrees : (Script.report ⟨{}, [agreeing]⟩ 0).diverged = false := by decide +kernel
  have completes := run_of_step (Store.inFolder "") Files.Tree.empty rfl rfl single stepped agrees
  rw [show after.frame = 1 from done.frame] at completes
  obtain ⟨steps, runs⟩ := checks_iff_not_hides (Store.inFolder "")
    (resume tape (.begin {}) 0) Files.Tree.empty
  refine ⟨tape, _, opened, start_of_sheet tape sheet, ⟨_, _, stepped, ?_⟩, ?_⟩
  · obtain ⟨batch, moved, again, -, checks⟩ := steps _ _ stepped
    obtain ⟨rfl, -⟩ := EStateM.Result.ok.inj (taken.symm.trans again)
    exact checks.mpr (unhidden _)
  · obtain ⟨played, executes, length, -, reproduces⟩ := runs _ _ _ _ _ completes
    refine ⟨_, _, _, played, completes, executes, length.trans single, reproduces.mpr ?_⟩
    cases executes with
    | nothing => cases length.trans single
    | frame again others =>
        obtain ⟨rfl, -⟩ := EStateM.Result.ok.inj (taken.symm.trans again)
        cases others with
        | nothing => exact List.forall_mem_singleton.mpr (unhidden _)
        | frame => cases length.trans single

def masking : Batch :=
  ⟨0, [⟨{}, .game (.ofChecksum 7)⟩, ⟨{}, .game (.ofChecksum 3818634013)⟩]⟩

theorem opens_masking :
    ∃ tape, ofBytes "masking.rep" (recordingOf 1 [masking]) = .ok tape ∧
      tape.sheet = { frameCount := 1 } ∧ ReadsBack tape [masking] :=
  readsBack_recordingOf "masking.rep" 1 rfl (by simp [masking, Packet.Body.Fits])
    (by simp [masking, Batch.InRange, Packet.Body.InRange])

/-- The checksum 7 is recorded for the frame, which leads to another; yet it does not diverge,
and a run completes. -/
theorem completed_masking :
    ∃ tape session behind, ofBytes "masking.rep" (recordingOf 1 [masking]) = .ok tape ∧
      start tape = .ok session ∧
      Tape.take session.frame session.tape = .ok (some masking) behind ∧
      7 ∈ recorded (some masking) ∧
      ∃ report after, step session = .ok report after ∧ report.checksum ≠ 7 ∧
        report.diverged = false ∧
        ∃ checksum accumulator, run (Store.inFolder "") session Files.Tree.empty =
          (.ok (.completed 1 checksum accumulator), after, Files.Tree.empty) := by
  obtain ⟨tape, opened, sheet, reads⟩ := opens_masking
  have single : (resume tape (.begin {}) 0).framesLeft = 1 := framesLeft_of_sheet tape sheet
  have aligned : Aligned ⟨{}, [masking]⟩ 0 (resume tape (.begin {}) 0) := aligned_start reads
  obtain ⟨behind, taken, -⟩ := aligned.take (by decide)
  have stepped := step_of_take taken
  have idle : ((World.Arena.begin {}).playFrame []).checksum = 3818634013 := by decide +kernel
  have led : (execute (some masking) (resume behind (.begin {}) 0)).1.checksum = 3818634013 := idle
  have agrees : (execute (some masking) (resume behind (.begin {}) 0)).1.diverged = false := by
    rw [diverged_execute, led]
    decide
  have completes := run_of_step (Store.inFolder "") Files.Tree.empty rfl rfl single stepped agrees
  refine ⟨tape, _, behind, opened, start_of_sheet tape sheet, taken, by decide, _, _, stepped, ?_,
    agrees, _, _, completes⟩
  change (execute (some masking) (resume behind (.begin {}) 0)).1.checksum ≠ 7
  rw [led]
  decide

end MatchTape.Playback.Session
