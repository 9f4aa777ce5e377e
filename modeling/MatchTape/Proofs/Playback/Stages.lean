import MatchTape.Proofs.Attempts
import MatchTape.Proofs.Playback.Resumption

/-!
# The stages of a resumption

Whatever is asked of a resumption and in whatever order, the calls that succeeded tell how far
it has come: none so far, a recording, or a recording and a checkpoint that belongs to it.  So
nothing is played that was restored in part, or from another recording.
-/

namespace MatchTape.Playback

open Record World

def Stage.isOver : Stage → Bool
  | completed | diverged | failed => true
  | idle | recordingLoaded | checkpointLoaded => false

namespace Resumption

/-- What can be asked of a resumption.  Files and checkpoints are given as they are found when
the call is made. -/
inductive Call where
  | loadRecording (name : String) (contents : Except Files.Fault (List UInt8))
  | loadCheckpoint (name : String) (found : Except Unloadable Checkpoint)
  | resume

def Call.stage : Call → Stage
  | loadRecording _ _ => .idle
  | loadCheckpoint _ _ => .recordingLoaded
  | resume => .checkpointLoaded

def Call.operation : Call → String
  | loadRecording _ _ => "load_replay_context"
  | loadCheckpoint _ _ => "load_checkpoint"
  | resume => "resume"

def perform : Call → EStateM Failure Resumption Unit
  | .loadRecording name contents => loadRecording name contents
  | .loadCheckpoint name found => loadCheckpoint name found
  | .resume => fun resumption =>
      match resume resumption with
      | .ok _ after => .ok () after
      | .error failure after => .error failure after

/-- The checkpoint belongs to the recording on the tape, and what has been restored stands where
the checkpoint does. -/
structure Restored (tape : Tape) (setup : Setup) (checkpoint : Checkpoint)
    (resumption : Resumption) : Prop where
  playback : checkpoint.playback = true
  digest : checkpoint.digest = tape.digest
  inside : checkpoint.frame ≤ tape.frameCount
  state : (Arena.begin setup).load checkpoint.state = .ok resumption.arena
  frame : resumption.arena.frame = checkpoint.frame
  offset : ∃ there, Tape.seek checkpoint.offset.toNat tape = .ok () there ∧
    resumption.tape = some there
  accumulator : resumption.accumulator = checkpoint.accumulator

variable {name : String} {contents : Except Files.Fault (List UInt8)}
  {found : Except Unloadable Checkpoint} {call : Call} {verdict : Verdict} {failure : Failure}
  {resumption after : Resumption} {tape there : Tape} {setup : Setup}

/-! ## What one call does -/

theorem perform_of_ne (other : resumption.stage ≠ call.stage) :
    perform call resumption =
      .error (.outOfTurn call.operation resumption.stage.name) resumption := by
  cases call with
  | loadRecording | loadCheckpoint => exact if_neg other
  | resume =>
      have refused : resume resumption =
          .error (.outOfTurn "resume" resumption.stage.name) resumption := if_neg other
      simp only [perform, refused, Call.operation]

theorem perform_of_isOver (ended : resumption.stage.isOver = true) (call : Call) :
    perform call resumption =
      .error (.outOfTurn call.operation resumption.stage.name) resumption := by
  apply perform_of_ne
  intro same
  rw [same] at ended
  cases call <;> cases ended

theorem loadRecording_cases (idle : resumption.stage = .idle) (name : String)
    (contents : Except Files.Fault (List UInt8)) :
    (∃ bytes tape setup, contents = .ok bytes ∧ openTape name (.ok bytes) = .ok (tape, setup) ∧
      loadRecording name contents resumption = .ok () { resumption with
        arena := .begin setup, tape := some tape, stage := .recordingLoaded }) ∨
    ∃ cause, loadRecording name contents resumption =
      .error (.cannotOpen name cause) resumption.fail := by
  simp only [loadRecording, atStage, if_pos idle]
  cases opened : openTape name contents with
  | error cause => exact .inr ⟨cause, rfl⟩
  | ok pair =>
      cases contents with
      | error fault => cases opened
      | ok bytes => exact .inl ⟨bytes, pair.1, pair.2, rfl, opened, rfl⟩

/-- Restoring a checkpoint reaches its end only with one that belongs to the tape. -/
theorem restored_of_restore (begun : resumption.arena = .begin setup)
    (loaded : resumption.tape = some tape) (done : restore found resumption = .ok () after) :
    ∃ checkpoint, found = .ok checkpoint ∧ Restored tape setup checkpoint after := by
  unfold restore at done
  cases found with
  | error cause => cases done
  | ok checkpoint =>
      simp only [loaded, begun] at done
      cases objects : objection? tape checkpoint with
      | some cause =>
          rw [objects] at done
          cases done
      | none =>
          obtain ⟨playback, digest, inside⟩ := objection?_eq_none_iff.mp objects
          cases state : (Arena.begin setup).load checkpoint.state with
          | error refusal =>
              simp only [objects, state] at done
              cases done
          | ok arena =>
              simp only [objects, state] at done
              split at done
              · cases done
              · next frame =>
                  cases sought : Tape.seek checkpoint.offset.toNat tape with
                  | error corrupt there =>
                      rw [sought] at done
                      cases done
                  | ok _ there =>
                      rw [sought] at done
                      cases done
                      exact ⟨checkpoint, rfl, playback, digest, inside, state, not_not.mp frame,
                        ⟨there, sought, rfl⟩, rfl⟩

theorem loadCheckpoint_cases (stage : resumption.stage = .recordingLoaded) (name : String)
    (found : Except Unloadable Checkpoint) :
    (∃ left, restore found resumption = .ok () left ∧
      loadCheckpoint name found resumption = .ok () { left with stage := .checkpointLoaded }) ∨
    ∃ cause left, loadCheckpoint name found resumption =
      .error (.checkpointLoad name cause) (fail left) := by
  simp only [loadCheckpoint, atStage, if_pos stage]
  cases restores : restore found resumption with
  | error cause left => exact .inr ⟨cause, left, rfl⟩
  | ok _ left => exact .inl ⟨left, rfl, rfl⟩

theorem resume_cases (stage : resumption.stage = .checkpointLoaded) :
    (∃ verdict after, resume resumption = .ok verdict after ∧ after.stage = stageOf verdict) ∨
      ∃ failure after, resume resumption = .error failure after ∧ after.stage = .failed := by
  simp only [resume, atStage, if_pos stage]
  cases resumption.tape with
  | none => exact .inr ⟨_, _, rfl, rfl⟩
  | some tape =>
      cases plays : Session.play (.resume tape resumption.arena resumption.accumulator) with
      | ok halt session =>
          simp only [plays]
          exact .inl ⟨_, _, rfl, rfl⟩
      | error failure session =>
          simp only [plays]
          exact .inr ⟨_, _, rfl, rfl⟩

theorem isOver_stageOf (verdict : Verdict) : (stageOf verdict).isOver = true := by
  cases verdict <;> rfl

/-- A call that succeeds is made in turn. -/
theorem stage_of_perform_ok (done : perform call resumption = .ok () after) :
    resumption.stage = call.stage := by
  by_contra other
  rw [perform_of_ne other] at done
  cases done

/-- A call in turn that fails ends the resumption. -/
theorem stage_of_perform_error (turn : resumption.stage = call.stage)
    (failed : perform call resumption = .error failure after) : after.stage = .failed := by
  cases call with
  | loadRecording name contents =>
      rcases loadRecording_cases turn name contents with ⟨_, _, _, _, _, done⟩ | ⟨_, refused⟩
      · cases done.symm.trans failed
      · cases refused.symm.trans failed
        rfl
  | loadCheckpoint name found =>
      rcases loadCheckpoint_cases turn name found with ⟨_, _, done⟩ | ⟨_, _, refused⟩
      · cases done.symm.trans failed
      · cases refused.symm.trans failed
        rfl
  | resume =>
      rcases resume_cases turn with ⟨_, _, played, _⟩ | ⟨_, _, refused, stage⟩
      · simp only [perform, played] at failed
        cases failed
      · simp only [perform, refused] at failed
        cases failed
        exact stage

/-! ## Calls one after another -/

/-- What a resumption is once some calls, and no others, have succeeded. -/
structure Reached (calls : List Call) (resumption : Resumption) : Prop where
  idle : resumption.stage = .idle → calls = []
  recordingLoaded : resumption.stage = .recordingLoaded →
    ∃ name bytes tape setup, calls = [.loadRecording name (.ok bytes)] ∧
      openTape name (.ok bytes) = .ok (tape, setup) ∧ resumption.arena = .begin setup ∧
      resumption.tape = some tape
  checkpointLoaded : resumption.stage = .checkpointLoaded →
    ∃ name bytes saveName checkpoint tape setup,
      calls = [.loadRecording name (.ok bytes), .loadCheckpoint saveName (.ok checkpoint)] ∧
      openTape name (.ok bytes) = .ok (tape, setup) ∧ Restored tape setup checkpoint resumption

namespace Reached

variable {calls : List Call}

theorem begin (arena : Arena) : Reached [] (.begin arena) :=
  ⟨fun _ => rfl, nofun, nofun⟩

theorem of_isOver (ended : resumption.stage.isOver = true) : Reached calls resumption := by
  constructor
  all_goals
    intro stage
    rw [stage] at ended
    cases ended

theorem perform_ok (reached : Reached calls resumption)
    (done : perform call resumption = .ok () after) : Reached (calls ++ [call]) after := by
  have turn := stage_of_perform_ok done
  cases call with
  | loadRecording name contents =>
      obtain rfl := reached.idle turn
      rcases loadRecording_cases turn name contents with
        ⟨bytes, tape, setup, rfl, opened, loaded⟩ | ⟨_, refused⟩
      · cases loaded.symm.trans done
        exact ⟨nofun, fun _ => ⟨name, bytes, tape, setup, rfl, opened, rfl, rfl⟩, nofun⟩
      · cases refused.symm.trans done
  | loadCheckpoint saveName found =>
      obtain ⟨name, bytes, tape, setup, rfl, opened, begun, taped⟩ := reached.recordingLoaded turn
      rcases loadCheckpoint_cases turn saveName found with ⟨left, restores, loaded⟩ | ⟨_, _, failed⟩
      · cases loaded.symm.trans done
        obtain ⟨checkpoint, rfl, restored⟩ := restored_of_restore begun taped restores
        refine ⟨nofun, nofun, fun _ => ?_⟩
        exact ⟨name, bytes, saveName, checkpoint, tape, setup, rfl, opened, { restored with }⟩
      · cases failed.symm.trans done
  | resume =>
      apply of_isOver
      rcases resume_cases turn with ⟨verdict, _, played, stage⟩ | ⟨_, _, refused, _⟩
      · simp only [perform, played] at done
        cases done
        rw [stage]
        exact isOver_stageOf verdict
      · simp only [perform, refused] at done
        cases done

/-- A call that fails changes nothing, or ends the resumption. -/
theorem perform_error (reached : Reached calls resumption)
    (failed : perform call resumption = .error failure after) : Reached calls after := by
  by_cases turn : resumption.stage = call.stage
  · apply of_isOver
    rw [stage_of_perform_error turn failed]
    rfl
  · rw [perform_of_ne turn] at failed
    cases failed
    exact reached

theorem final (reached : Reached calls resumption) (later : List Call) :
    Reached (calls ++ Attempts.accepted perform later resumption)
      (Attempts.final perform later resumption) := by
  induction later generalizing calls resumption with
  | nil => exact (List.append_nil calls).symm ▸ reached
  | cons call later ih =>
      cases result : perform call resumption with
      | ok _ after =>
          rw [Attempts.accepted_cons_of_ok result, Attempts.final, Attempts.left_of_ok result,
            List.append_cons]
          exact ih (reached.perform_ok result)
      | error failure after =>
          rw [Attempts.accepted_cons_of_error result, Attempts.final, Attempts.left_of_error result]
          exact ih (reached.perform_error result)

end Reached

theorem accepted_of_isOver (ended : resumption.stage.isOver = true) (calls : List Call) :
    Attempts.accepted perform calls resumption = [] := by
  induction calls with
  | nil => rfl
  | cons call calls ih => rw [Attempts.accepted_cons_of_error (perform_of_isOver ended call), ih]

/-- Whatever is asked of a resumption, it plays only if exactly two calls have succeeded: one
that loaded a recording, and after it one that loaded a checkpoint which was saved in playback,
from a recording of the same digest, at a frame that the recording has, at which the restored
arena stands, and at an offset among its packets.  A call out of turn changes nothing, any other
failure ends the resumption, and once it has ended nothing succeeds. -/
theorem resumes_only_matching (arena : Arena) (calls : List Call) :
    let before := Attempts.final perform calls (.begin arena)
    (∀ verdict after, resume before = .ok verdict after →
      ∃ name bytes saveName checkpoint tape setup,
        Attempts.accepted perform calls (.begin arena) =
          [.loadRecording name (.ok bytes), .loadCheckpoint saveName (.ok checkpoint)] ∧
        openTape name (.ok bytes) = .ok (tape, setup) ∧
        checkpoint.playback = true ∧ checkpoint.digest = tape.digest ∧
        checkpoint.frame ≤ tape.frameCount ∧
        (Arena.begin setup).load checkpoint.state = .ok before.arena ∧
        before.frame = checkpoint.frame ∧
        tape.packetsStart ≤ checkpoint.offset.toNat ∧
        checkpoint.offset.toNat ≤ tape.contents.length) ∧
      (∀ call, before.stage ≠ call.stage →
        perform call before = .error (.outOfTurn call.operation before.stage.name) before) ∧
      (∀ call failure after, before.stage = call.stage →
        perform call before = .error failure after → after.stage = .failed) ∧
      (before.stage.isOver = true → ∀ later, Attempts.accepted perform later before = []) := by
  intro before
  refine ⟨?_, fun call => perform_of_ne, fun call failure after => stage_of_perform_error,
    accepted_of_isOver⟩
  intro verdict after played
  have done : perform .resume before = .ok () after := by
    simp only [perform, played]
  have reached : Reached (Attempts.accepted perform calls (.begin arena)) before :=
    (Reached.begin arena).final calls
  obtain ⟨name, bytes, saveName, checkpoint, tape, setup, past, opened, restored⟩ :=
    reached.checkpointLoaded (stage_of_perform_ok done)
  obtain ⟨there, sought, -⟩ := restored.offset
  obtain ⟨start, stop⟩ := Tape.inside_of_seek sought
  exact ⟨name, bytes, saveName, checkpoint, tape, setup, past, opened, restored.playback,
    restored.digest, restored.inside, restored.state, restored.frame, start, stop⟩

/-- Before anything is loaded, playing is asked for; then the recording in which the player
leaves is loaded twice, and a checkpoint once. -/
def hastyCalls (checkpoint : Checkpoint) : List Call :=
  [.resume, .loadRecording "leaving" (.ok leavingContents),
   .loadRecording "leaving" (.ok leavingContents), .loadCheckpoint "start" (.ok checkpoint)]

theorem resume_hasty :
    ∃ checkpoint after,
      resume (Attempts.final perform (hastyCalls checkpoint) (.begin .empty)) =
        .ok (.diverged 1 7 (Script.checksum ⟨{}, [leavingLate]⟩ 1)) after ∧
      after.stage = .diverged := by
  obtain ⟨tape, opened, sheet, reads⟩ := opens_leavingContents
  have sought := (Tape.opened_of_ofBytes opened).seek_position
  have valid : Setup.ofSheet tape.sheet = .ok {} := by
    rw [sheet]
    exact Setup.ofSheet_of_empty rfl
  have count : tape.frameCount = 2 := congrArg MatchSheet.frameCount sheet
  have inside : 1 < tape.frameCount.toNat := by rw [count]; decide
  have begins : (Session.resume tape (.begin {}) 0).frame = 0 := (Arena.at_begin {}).frame
  have fits : tape.position < 2 ^ 64 := by
    have stop := (Tape.opened_of_ofBytes opened).within.stop
    rw [(Tape.opened_of_ofBytes opened).contents_eq] at stop
    exact Nat.lt_of_le_of_lt stop (by decide)
  have regular : Script.Regular ⟨{}, [leavingLate]⟩ := ⟨reads.ascending, by decide⟩
  obtain ⟨final, runs, -⟩ := Session.run_diverges (Store.inFolder "") Files.Tree.empty reads
    regular inside (by decide +kernel) rfl (by decide +kernel)
  rw [Session.run_plain _ _ rfl] at runs
  obtain ⟨after, plays, -⟩ := resume_eq (.begin {}) tape 0
  rw [(Prod.mk.inj runs).1] at plays
  let begun : Resumption := ⟨.begin {}, .recordingLoaded, some tape, 0, #[]⟩
  let ready : Resumption := ⟨.begin {}, .checkpointLoaded, some tape, 0, #[]⟩
  let checkpoint := (Session.resume tape (.begin {}) 0).checkpoint
  have waits : perform .resume (.begin .empty) = .error _ (.begin .empty) :=
    perform_of_ne (by rintro ⟨⟩)
  have loads : perform (.loadRecording "leaving" (.ok leavingContents)) (.begin .empty) =
      .ok () begun := loadRecording_of_ofBytes opened valid .empty
  have refuses : perform (.loadRecording "leaving" (.ok leavingContents)) begun = .error _ begun :=
    perform_of_ne (by rintro ⟨⟩)
  have readies : perform (.loadCheckpoint "start" (.ok checkpoint)) begun = .ok () ready :=
    loadCheckpoint_checkpoint "start" (.refl tape) (begins ▸ Arena.at_begin {}) (by decide)
      (by rw [begins, count]; decide) fits sought
  refine ⟨checkpoint, after, ?_, ?_⟩
  · simp only [hastyCalls, Attempts.final, Attempts.left_of_error waits, Attempts.left_of_ok loads,
      Attempts.left_of_error refuses, Attempts.left_of_ok readies]
    exact plays
  · rcases resume_cases (show ready.stage = .checkpointLoaded from rfl) with
      ⟨_, _, played, stage⟩ | ⟨_, _, failed, -⟩
    · cases played.symm.trans plays
      exact stage
    · cases failed.symm.trans plays

/-- Playing has to wait for recording and checkpoint, and the recording is taken once.  When the
recording has turned out to be contradicted, nothing can be done any more. -/
theorem resumes_only_matching_hasty :
    ∃ checkpoint after,
      resume (Attempts.final perform (hastyCalls checkpoint) (.begin .empty)) =
          .ok (.diverged 1 7 (Script.checksum ⟨{}, [leavingLate]⟩ 1)) after ∧
        (Attempts.accepted perform (hastyCalls checkpoint) (.begin .empty)).length = 2 ∧
        perform .resume (.begin .empty) = .error (.outOfTurn "resume" "Idle") (.begin .empty) ∧
        Attempts.accepted perform (hastyCalls checkpoint) after = [] := by
  obtain ⟨checkpoint, after, plays, ended⟩ := resume_hasty
  refine ⟨checkpoint, after, plays, ?_, ?_, ?_⟩
  · obtain ⟨_, _, _, _, _, _, past, -⟩ :=
      (resumes_only_matching .empty (hastyCalls checkpoint)).1 _ _ plays
    rw [past]
    rfl
  · exact (resumes_only_matching .empty []).2.1 .resume nofun
  · have ends := (resumes_only_matching .empty (hastyCalls checkpoint ++ [.resume])).2.2.2
    have last : Attempts.final perform (hastyCalls checkpoint ++ [.resume]) (.begin .empty) =
        after := by
      simp only [Attempts.final_append, Attempts.final, Attempts.left, perform, plays]
    rw [last] at ends
    exact ends (ended ▸ rfl) (hastyCalls checkpoint)

end Resumption

end MatchTape.Playback
