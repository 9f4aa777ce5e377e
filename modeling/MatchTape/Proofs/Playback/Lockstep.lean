import MatchTape.Proofs.Playback.Ending

/-!
# Sessions in lockstep

Two sessions that stand at the same frame of one recording play on alike, whatever each
of them did before: frame by frame they make the same reports, and they fail or come to
rest for the same reason.  A session that is asked for a checkpoint goes along with the
other as far as the frame of the checkpoint.
-/

namespace MatchTape.Playback.Session

open World Tape

variable {tape : Tape} {setup : Setup} {played : Nat} {session other : Session}

/-- Two sessions stand behind the same number of frames of one recording.  What was read
last is no part of this: it only has to be earlier than the frame that is played next. -/
structure Alike (tape : Tape) (setup : Setup) (played : Nat) (session other : Session) :
    Prop where
  stands : Arena.At setup (.ofNat played) session.arena
  arena : other.arena = session.arena
  accumulator : other.accumulator = session.accumulator
  recording : tape.SameRecording session.tape
  recordingOther : tape.SameRecording other.tape
  within : session.tape.Within
  level : Level (.ofNat played) session.tape other.tape
  running : session.stopRaised = false
  runningOther : other.stopRaised = false

theorem ofNat_lt_ofNat {first last : Nat} (before : first < last) (room : last < 2 ^ 32) :
    UInt32.ofNat first < UInt32.ofNat last :=
  (UInt32.ofNat_lt_iff_lt (Nat.lt_trans before room) room).mpr before

structure Together (tape : Tape) (setup : Setup) (played : Nat) (session other : Session)
    (report : Report) (next nextOther : Session) : Prop where
  step : step session = .ok report next
  stepOther : Session.step other = .ok report nextOther
  frame : report.frame = .ofNat played
  alike : Alike tape setup (played + 1) next nextOther
  onward : Onward [report] session next
  onwardOther : Onward [report] other nextOther

theorem Together.frame_toNat {report : Report} {next nextOther : Session}
    (both : Together tape setup played session other report next nextOther)
    (room : played < 2 ^ 32) : report.frame.toNat = played := by
  rw [both.frame, UInt32.toNat_ofNat_of_lt' room]

namespace Alike

theorem standsOther (alike : Alike tape setup played session other) :
    Arena.At setup (.ofNat played) other.arena := by
  rw [alike.arena]
  exact alike.stands

theorem frameOther (alike : Alike tape setup played session other) :
    other.arena.frame = .ofNat played :=
  alike.standsOther.frame

theorem verdict (alike : Alike tape setup played session other) (halt : Halt) :
    other.verdict halt = session.verdict halt := by
  cases halt <;> simp only [Session.verdict, frame, alike.arena, alike.accumulator]

/-- If both tapes give the same batch, both sessions play the next frame. -/
theorem together (alike : Alike tape setup played session other) {batch : Option Batch}
    {after afterOther : Tape} (recording : tape.SameRecording after)
    (recordingOther : tape.SameRecording afterOther) (within : after.Within)
    (level : Level (.ofNat (played + 1)) after afterOther)
    (taken : Tape.take session.arena.frame session.tape = .ok batch after)
    (takenOther : Tape.take other.arena.frame other.tape = .ok batch afterOther) :
    ∃ report next nextOther, Together tape setup played session other report next nextOther := by
  have same : (execute batch { other with tape := afterOther }).1 =
      (execute batch { session with tape := after }).1 := by
    simp only [execute, alike.arena, alike.accumulator]
  have stands := alike.stands.playFrame ((batch.map Batch.orders).getD [])
  rw [← UInt32.ofNat_one, ← UInt32.ofNat_add] at stands
  have stepped := step_of_take takenOther
  have onward := onward_execute batch other afterOther
  rw [same] at stepped onward
  refine ⟨_, _, _, step_of_take taken, stepped, alike.stands.frame, ?_,
    onward_execute batch session after, onward⟩
  refine ⟨stands, ?_, ?_, recording, recordingOther, within, level, alike.running,
    alike.runningOther⟩
  · simp only [execute, alike.arena]
  · simp only [execute, alike.arena, alike.accumulator]

/-- Both sessions fail to play the next frame, or both play it. -/
theorem step (alike : Alike tape setup played session other) (room : played + 1 < 2 ^ 32) :
    (∃ failure, Session.step session = .error failure session ∧
      Session.step other = .error failure other) ∨
    ∃ report next nextOther, Together tape setup played session other report next nextOther := by
  have after := ofNat_lt_ofNat (Nat.lt_succ_self played) room
  have takes := alike.level.take alike.within
  rcases takes with ⟨failure, failed, failedOther⟩ | ⟨passed, passedOther⟩ |
    ⟨batch, count, taken, takenOther, within⟩
  · rw [← alike.stands.frame] at failed
    rw [← alike.frameOther] at failedOther
    exact .inl ⟨failure, step_of_take_error failed, step_of_take_error failedOther⟩
  · rw [← alike.stands.frame] at passed
    rw [← alike.frameOther] at passedOther
    exact .inr (alike.together alike.recording alike.recordingOther alike.within
      (alike.level.later after) passed passedOther)
  · have level := alike.level.skip after count
    rw [← alike.stands.frame] at taken
    rw [← alike.frameOther] at takenOther
    refine .inr (alike.together ?_ ?_ ?_ ?_ taken takenOther)
    · exact alike.recording.skip count _
    · exact alike.recordingOther.skip count _
    · rw [alike.stands.frame]
      exact within
    · rw [alike.stands.frame, alike.frameOther]
      exact level

/-- Two sessions that are not asked for a checkpoint end alike, and on the way they make
the same reports of the same frames. -/
theorem playFrames (alike : Alike tape setup played session other) {left : Nat}
    (plain : session.request = none) (plainOther : other.request = none)
    (room : played + left < 2 ^ 32) :
    outcome (Session.playFrames left other) = outcome (Session.playFrames left session) ∧
    ∃ more, (∀ report ∈ more, played ≤ report.frame.toNat) ∧
      Onward more session (ending (Session.playFrames left session)) ∧
      Onward more other (ending (Session.playFrames left other)) := by
  induction left generalizing played session other with
  | zero =>
      simp only [Session.playFrames, alike.running, alike.runningOther, Bool.false_eq_true,
        if_false]
      exact ⟨congrArg Except.ok (alike.verdict .completed), [], List.forall_mem_nil _,
        .refl session, .refl other⟩
  | succ left ih =>
      rcases alike.step (by omega) with ⟨failure, failed, failedOther⟩ |
        ⟨report, next, nextOther, both⟩
      · rw [playFrames_succ_error alike.running failed,
          playFrames_succ_error alike.runningOther failedOther]
        exact ⟨rfl, [], List.forall_mem_nil _, .refl session, .refl other⟩
      · have still := both.onward.request.trans plain
        have stillOther := both.onwardOther.request.trans plainOther
        have current : played ≤ report.frame.toNat := (both.frame_toNat (by omega)).ge
        rw [playFrames_succ alike.running both.step (due?_eq_none still),
          playFrames_succ alike.runningOther both.stepOther (due?_eq_none stillOther)]
        cases report.contradicted? with
        | some expected =>
            exact ⟨rfl, [report], List.forall_mem_singleton.mpr current, both.onward,
              both.onwardOther⟩
        | none =>
            obtain ⟨same, more, later, goes, goesOther⟩ :=
              ih both.alike still stillOther (by omega)
            refine ⟨same, report :: more, ?_, both.onward.trans goes,
              both.onwardOther.trans goesOther⟩
            exact List.forall_mem_cons.mpr ⟨current, fun found member =>
              Nat.le_of_succ_le (later found member)⟩

/-- A session that is asked for a checkpoint goes along with one that is not, as far as
the frame of the checkpoint, if the other gets there without a contradicted checksum. -/
theorem playFrames_due (alike : Alike tape setup played session other) {left target more : Nat}
    {name : String} (plain : session.request = none)
    (asked : other.request = some ⟨.ofNat target, name⟩) (ahead : played < target)
    (inside : target + more = played + left) (room : played + left < 2 ^ 32)
    (reached : target ≤ (ending (Session.playFrames left session)).arena.frame.toNat)
    (agrees : ∀ report ∈ (ending (Session.playFrames left session)).reports.toList,
      report.frame.toNat < target → report.diverged = false) :
    ∃ first middle due,
      Session.playFrames left session = Session.playFrames more middle ∧
      Session.playFrames left other = .ok (.due name) due ∧
      Alike tape setup target middle due ∧
      (∀ report ∈ first, report.frame.toNat < target) ∧ Onward first session middle := by
  induction left generalizing played session other with
  | zero => omega
  | succ left ih =>
      have small : played < 2 ^ 32 := by omega
      rcases alike.step (by omega) with ⟨failure, failed, -⟩ | ⟨report, next, nextOther, both⟩
      · -- The session would have failed before the frame of the checkpoint.
        rw [playFrames_succ_error alike.running failed, ending, alike.stands.frame,
          UInt32.toNat_ofNat_of_lt' small] at reached
        omega
      · have still := both.onward.request.trans plain
        have stillOther := both.onwardOther.request.trans asked
        have early : report.frame.toNat < target := by rwa [both.frame_toNat small]
        have agreed := agrees report (mem_reports_ending alike.running both.step) early
        have goes : Session.playFrames (left + 1) session = Session.playFrames left next := by
          rw [playFrames_succ alike.running both.step (due?_eq_none still), Report.contradicted?,
            agreed]
          rfl
        rw [goes] at reached agrees ⊢
        rcases Nat.eq_or_lt_of_le (Nat.succ_le_of_lt ahead) with rfl | later
        · have due : nextOther.due? = some name := by
            rw [due?, stillOther, frame, both.alike.frameOther]
            exact if_pos rfl
          obtain rfl : more = left := by omega
          exact ⟨[report], next, nextOther, rfl,
            playFrames_succ_due alike.runningOther both.stepOther due, both.alike,
            List.forall_mem_singleton.mpr early, both.onward⟩
        · have free : nextOther.due? = none := by
            rw [due?, stillOther, frame, both.alike.frameOther]
            exact if_neg (UInt32.ne_of_lt (ofNat_lt_ofNat later (by omega)))
          have goesOther : Session.playFrames (left + 1) other =
              Session.playFrames left nextOther := by
            rw [playFrames_succ alike.runningOther both.stepOther free, Report.contradicted?,
              agreed]
            rfl
          rw [goesOther]
          obtain ⟨first, middle, due, plays, playsOther, done, before, onward⟩ :=
            ih both.alike still stillOther later (by omega) (by omega) reached agrees
          exact ⟨report :: first, middle, due, plays, playsOther, done,
            List.forall_mem_cons.mpr ⟨early, before⟩, both.onward.trans onward⟩

end Alike

end MatchTape.Playback.Session
