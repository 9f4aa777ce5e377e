import MatchTape.Proofs.Digest
import MatchTape.Proofs.Playback.Ending
import MatchTape.Proofs.Tape.Offers

/-!
# What a recording means

A script is what a recording says once all of it has been read: the setup of a match
and batches of commands.  It determines the arena before every frame, the checksum each
frame leads to, and the first frame whose recorded checksum is another.  A session that
plays a tape from which the batches of a script are read back does what the script says.
-/

namespace MatchTape.Playback

open Packet World Tape

/-- A match and its batches of commands. -/
structure Script where
  setup : Setup
  batches : List Batch

namespace Script

def batch? (script : Script) (frame : Nat) : Option Batch :=
  script.batches.find? (·.frame.toNat == frame)

/-- The commands that take effect in a frame: those of its batch that report no checksum. -/
def orders (script : Script) (frame : Nat) : List Command :=
  match script.batch? frame with
  | some batch => batch.commands.filter (·.checksum?.isNone)
  | none => []

def expected? (script : Script) (frame : Nat) : Option UInt32 :=
  (script.batch? frame).bind fun batch => batch.commands.findSome? Command.checksum?

def arena (script : Script) : Nat → Arena
  | 0 => .begin script.setup
  | frame + 1 => (script.arena frame).playFrame (script.orders frame)

def checksum (script : Script) (frame : Nat) : UInt32 :=
  (script.arena (frame + 1)).checksum

def accumulator (script : Script) (frames : Nat) : UInt32 :=
  Digest.Fold.checksums 0 ((List.range frames).map script.checksum)

def contradicts (script : Script) (frame : Nat) : Bool :=
  (script.expected? frame).any (· != script.checksum frame)

def report (script : Script) (frame : Nat) : Report where
  frame := .ofNat frame
  checksum := script.checksum frame
  expected := script.expected? frame
  accumulator := script.accumulator (frame + 1)
  diverged := script.contradicts frame

theorem accumulator_succ (script : Script) (frames : Nat) :
    script.accumulator (frames + 1) =
      Digest.Fold.step (script.accumulator frames) (script.checksum frames) := by
  rw [accumulator, accumulator, List.range_succ, List.map_append, List.map_singleton,
    Digest.Fold.checksums_concat]

theorem at_arena (script : Script) (frame : Nat) :
    Arena.At script.setup (.ofNat frame) (script.arena frame) := by
  induction frame with
  | zero => exact Arena.at_begin script.setup
  | succ frame ih =>
      rw [UInt32.ofNat_add]
      exact ih.playFrame (script.orders frame)

/-- The frames of the batches ascend, and each batch reports at most one checksum. -/
structure Regular (script : Script) : Prop where
  ascending : script.batches.Pairwise fun first second => first.frame < second.frame
  single : ∀ batch ∈ script.batches, (batch.commands.filterMap Command.checksum?).length ≤ 1

/-- Of a single report it does not matter whether the first or the last one counts. -/
theorem expected?_eq {script : Script} (regular : script.Regular) (frame : Nat) :
    (script.batch? frame).bind Batch.expected? = script.expected? frame := by
  unfold expected?
  cases found : script.batch? frame with
  | none => rfl
  | some batch =>
      have single := regular.single batch (List.mem_of_find?_eq_some found)
      change (batch.commands.filterMap Command.checksum?).getLast? =
        batch.commands.findSome? Command.checksum?
      rw [← List.head?_filterMap]
      match batch.commands.filterMap Command.checksum?, single with
      | [], _ => rfl
      | [_], _ => rfl

end Script

namespace Session

variable {script : Script} {session : Session} {played : Nat}

/-- A session stands behind a number of frames of a script: its arena, accumulator and
reports are those of the script, and the batches of all other frames are still on the
tape.  Nobody asks it for anything else than to play on. -/
structure Aligned (script : Script) (played : Nat) (session : Session) : Prop where
  arena : session.arena = script.arena played
  accumulator : session.accumulator = script.accumulator played
  reports : session.reports.toList = (List.range played).map script.report
  unread : ReadsBack session.tape
    (script.batches.filter fun batch => decide (played ≤ batch.frame.toNat))
  request : session.request = none
  stopRaised : session.stopRaised = false

namespace Aligned

theorem frame (aligned : Aligned script played session) :
    session.arena.frame = .ofNat played := by
  rw [aligned.arena, (script.at_arena played).frame]

/-- The tape gives the batch of the frame and is left with the batches of later frames. -/
theorem take (aligned : Aligned script played session) (room : played < 2 ^ 32) :
    ∃ after, Tape.take session.arena.frame session.tape = .ok (script.batch? played) after ∧
      ReadsBack after
        (script.batches.filter fun batch => decide (played + 1 ≤ batch.frame.toNat)) := by
  have frame : session.arena.frame.toNat = played := by
    rw [aligned.frame, UInt32.toNat_ofNat_of_lt' room]
  have current : ∀ batch ∈ script.batches.filter fun batch => decide (played ≤ batch.frame.toNat),
      session.arena.frame ≤ batch.frame := by
    intro batch member
    rw [UInt32.le_iff_toNat_le, frame]
    exact of_decide_eq_true (List.mem_filter.mp member).2
  obtain ⟨after, taken, unread⟩ := aligned.unread.take current
  refine ⟨after, ?_, ?_⟩
  · rw [taken, List.find?_filter, Script.batch?]
    congr 2
    funext batch
    rw [Bool.eq_iff_iff]
    simp only [Bool.decide_and, beq_iff_eq, ← UInt32.toNat_inj, frame,
      Bool.and_eq_true, decide_eq_true_eq]
    omega
  · rw [List.filter_filter] at unread
    convert unread using 2
    funext batch
    rw [Bool.eq_iff_iff]
    simp only [UInt32.lt_iff_toNat_lt, frame, Bool.and_eq_true, decide_eq_true_eq]
    omega

/-- Playing a frame makes the report of the script and leads behind the frame. -/
theorem step (regular : script.Regular) (aligned : Aligned script played session)
    (room : played < 2 ^ 32) :
    ∃ after, Session.step session = .ok (script.report played) after ∧
      Aligned script (played + 1) after := by
  obtain ⟨tape, taken, unread⟩ := aligned.take room
  have orders : ((script.batch? played).map Batch.orders).getD [] = script.orders played := by
    unfold Script.orders
    cases script.batch? played <;> rfl
  have arena : ((((script.batch? played).map Batch.orders).getD []).foldl
      (fun arena command => arena.apply command) session.arena).advance =
        script.arena (played + 1) := by
    rw [orders, aligned.arena]
    rfl
  have accumulator : Digest.Fold.step session.accumulator (script.arena (played + 1)).checksum =
      script.accumulator (played + 1) := by
    rw [aligned.accumulator, Script.accumulator_succ]
    rfl
  have report : (execute (script.batch? played) { session with tape }).1 =
      script.report played := by
    simp only [execute, arena, accumulator, Script.expected?_eq regular, aligned.frame]
    rfl
  refine ⟨(execute (script.batch? played) { session with tape }).2, ?_, ?_⟩
  · rw [← report, Session.step, taken]
  · refine ⟨arena, ?_, ?_, unread, aligned.request, aligned.stopRaised⟩
    · simp only [execute, arena, accumulator]
    · rw [List.range_succ, List.map_append, ← aligned.reports, List.map_singleton, ← report]
      exact Array.toList_push

/-- A frame that contradicts its recorded checksum is reported as such, any other is not. -/
theorem contradicted?_report (script : Script) (frame : Nat) :
    (script.report frame).contradicted? =
      if script.contradicts frame then script.expected? frame else none :=
  rfl

theorem playFrames_succ (regular : script.Regular) (aligned : Aligned script played session)
    (room : played < 2 ^ 32) (left : Nat) :
    ∃ after, Aligned script (played + 1) after ∧
      playFrames (left + 1) session =
        match (script.report played).contradicted? with
        | some expected =>
            .ok (.contradicted (.ofNat played) expected (script.checksum played)) after
        | none => playFrames left after := by
  obtain ⟨after, stepped, further⟩ := aligned.step regular room
  refine ⟨after, further, ?_⟩
  rw [Session.playFrames_succ aligned.stopRaised stepped (due?_eq_none further.request)]
  cases (script.report played).contradicted? with
  | none => rfl
  | some expected => simp only [Script.report]

/-- Frames that are not contradicted are played to the last. -/
theorem playFrames_completes (regular : script.Regular) {left : Nat}
    (aligned : Aligned script played session) (room : played + left < 2 ^ 32)
    (agrees : ∀ frame < played + left, script.contradicts frame = false) :
    ∃ final, playFrames left session = .ok .completed final ∧
      Aligned script (played + left) final := by
  induction left generalizing played session with
  | zero =>
      refine ⟨session, ?_, aligned⟩
      simp only [playFrames, aligned.stopRaised, Bool.false_eq_true, if_false]
  | succ left ih =>
      obtain ⟨after, further, plays⟩ := aligned.playFrames_succ regular (by omega) left
      obtain ⟨final, rest, done⟩ := ih further (by omega) fun frame before =>
        agrees frame (by omega)
      refine ⟨final, ?_, ?_⟩
      · rw [plays, contradicted?_report, agrees played (by omega)]
        exact rest
      · rw [Nat.add_right_comm] at done
        exact done

/-- Playing ends behind the first frame that is contradicted. -/
theorem playFrames_diverges (regular : script.Regular) {left frame : Nat} {expected : UInt32}
    (aligned : Aligned script played session) (room : played + left < 2 ^ 32)
    (reached : played ≤ frame) (inside : frame < played + left)
    (agrees : ∀ earlier < frame, script.contradicts earlier = false)
    (recorded : script.expected? frame = some expected)
    (contradicted : script.contradicts frame = true) :
    ∃ final,
      playFrames left session =
        .ok (.contradicted (.ofNat frame) expected (script.checksum frame)) final ∧
      Aligned script (frame + 1) final := by
  induction left generalizing played session with
  | zero => omega
  | succ left ih =>
      obtain ⟨after, further, plays⟩ := aligned.playFrames_succ regular (by omega) left
      rw [plays, contradicted?_report]
      rcases Nat.eq_or_lt_of_le reached with rfl | before
      · rw [contradicted, if_pos rfl, recorded]
        exact ⟨after, rfl, further⟩
      · rw [agrees played before]
        exact ih further (by omega) before (by omega)

end Aligned

/-! ## Whole runs -/

theorem aligned_start {tape : Tape} {batches : List Batch} {setup : Setup}
    (reads : ReadsBack tape batches) :
    Aligned ⟨setup, batches⟩ 0 (resume tape (.begin setup) 0) := by
  refine ⟨rfl, rfl, rfl, ?_, rfl, rfl⟩
  have all : (batches.filter fun batch => decide (0 ≤ batch.frame.toNat)) = batches :=
    List.filter_eq_self.mpr fun _ _ => decide_eq_true (Nat.zero_le _)
  change ReadsBack tape (batches.filter fun batch => decide (0 ≤ batch.frame.toNat))
  rw [all]
  exact reads

section

variable {tape : Tape} {batches : List Batch} {setup : Setup}

/-- A session goes on to its last frame if no recorded checksum is contradicted. -/
theorem run_completes {σ : Type} (store : Store σ) (shelf : σ) (reads : ReadsBack tape batches)
    (regular : Script.Regular ⟨setup, batches⟩)
    (agrees : ∀ frame < tape.frameCount.toNat, Script.contradicts ⟨setup, batches⟩ frame = false) :
    ∃ final, run store (resume tape (.begin setup) 0) shelf =
        (.ok (.completed tape.frameCount
          (Script.arena ⟨setup, batches⟩ tape.frameCount.toNat).checksum
          (Script.accumulator ⟨setup, batches⟩ tape.frameCount.toNat)), final, shelf) ∧
      Aligned ⟨setup, batches⟩ tape.frameCount.toNat final := by
  have room : 0 + tape.frameCount.toNat < 2 ^ 32 := by
    rw [Nat.zero_add]
    exact tape.frameCount.toNat_lt
  obtain ⟨final, plays, done⟩ := (aligned_start reads).playFrames_completes regular room
    fun frame before => agrees frame (by rwa [Nat.zero_add] at before)
  rw [← framesLeft_start tape setup] at plays
  rw [Nat.zero_add] at done
  refine ⟨final, ?_, done⟩
  rw [run_plain store shelf rfl, play, plays, outcome, ending, verdict, frame, done.frame,
    UInt32.ofNat_toNat, done.accumulator, done.arena]

/-- A session comes to rest behind the first frame whose recorded checksum is contradicted. -/
theorem run_diverges {σ : Type} (store : Store σ) (shelf : σ) (reads : ReadsBack tape batches)
    (regular : Script.Regular ⟨setup, batches⟩) {frame : Nat} {expected : UInt32}
    (inside : frame < tape.frameCount.toNat)
    (agrees : ∀ earlier < frame, Script.contradicts ⟨setup, batches⟩ earlier = false)
    (recorded : Script.expected? ⟨setup, batches⟩ frame = some expected)
    (contradicted : Script.contradicts ⟨setup, batches⟩ frame = true) :
    ∃ final, run store (resume tape (.begin setup) 0) shelf =
        (.ok (.diverged (.ofNat frame) expected (Script.checksum ⟨setup, batches⟩ frame)),
          final, shelf) ∧
      Aligned ⟨setup, batches⟩ (frame + 1) final := by
  have room : 0 + tape.frameCount.toNat < 2 ^ 32 := by
    rw [Nat.zero_add]
    exact tape.frameCount.toNat_lt
  obtain ⟨final, plays, done⟩ := (aligned_start reads).playFrames_diverges regular room
    (Nat.zero_le frame) (by rwa [Nat.zero_add]) agrees recorded contradicted
  rw [← framesLeft_start tape setup] at plays
  refine ⟨final, ?_, done⟩
  rw [run_plain store shelf rfl, play, plays]
  rfl

/-- A tape whose batches are read back, each with at most one recorded checksum, is played
as the script on it says.  A session starts at its first frame; it ends at the first frame
of the recording whose recorded checksum differs from the one the frame leads to, or else
behind the last frame.  In both cases it has executed the frames up to there, has reported
each of them in order, and has folded their checksums from zero. -/
theorem run_start {σ : Type} (store : Store σ) (shelf : σ)
    (valid : Setup.ofSheet tape.sheet = .ok setup) (reads : ReadsBack tape batches)
    (single : ∀ batch ∈ batches, (batch.commands.filterMap Command.checksum?).length ≤ 1) :
    let script : Script := ⟨setup, batches⟩
    ∃ session, start tape = .ok session ∧
      (∀ frame < tape.frameCount.toNat, ∀ expected, script.expected? frame = some expected →
        expected ≠ script.checksum frame →
        (∀ earlier < frame, script.contradicts earlier = false) →
        ∃ final, run store session shelf =
            (.ok (.diverged (.ofNat frame) expected (script.checksum frame)), final, shelf) ∧
          final.arena = script.arena (frame + 1) ∧
          final.accumulator = script.accumulator (frame + 1) ∧
          final.reports.toList = (List.range (frame + 1)).map script.report) ∧
      ((∀ frame < tape.frameCount.toNat, script.contradicts frame = false) →
        ∃ final, run store session shelf =
            (.ok (.completed tape.frameCount (script.arena tape.frameCount.toNat).checksum
              (script.accumulator tape.frameCount.toNat)), final, shelf) ∧
          final.arena = script.arena tape.frameCount.toNat ∧
          final.accumulator = script.accumulator tape.frameCount.toNat ∧
          final.reports.toList = (List.range tape.frameCount.toNat).map script.report) := by
  intro script
  have regular : script.Regular := ⟨reads.ascending, single⟩
  have started : start tape = .ok (resume tape (.begin setup) 0) := by rw [start, valid]
  refine ⟨_, started, ?_, ?_⟩
  · intro frame inside expected recorded differs agrees
    have contradicted : script.contradicts frame = true := by
      rw [Script.contradicts, recorded]
      exact bne_iff_ne.mpr differs
    obtain ⟨final, runs, done⟩ :=
      run_diverges store shelf reads regular inside agrees recorded contradicted
    exact ⟨final, runs, done.arena, done.accumulator, done.reports⟩
  · intro agrees
    obtain ⟨final, runs, done⟩ := run_completes store shelf reads regular agrees
    exact ⟨final, runs, done.arena, done.accumulator, done.reports⟩

end

/-! ## Matches without players -/

theorem start_of_sheet (tape : Tape) {frameCount : UInt32}
    (sheet : tape.sheet = { frameCount }) : start tape = .ok (resume tape (.begin {}) 0) := by
  rw [start, sheet, Setup.ofSheet_of_empty rfl]

theorem framesLeft_of_sheet (tape : Tape) {frameCount : UInt32}
    (sheet : tape.sheet = { frameCount }) :
    (resume tape (.begin {}) 0).framesLeft = frameCount.toNat := by
  rw [framesLeft_start, Tape.frameCount, sheet]

def leaving : Batch :=
  ⟨0, [⟨{}, .playerLeave 0⟩, ⟨{}, .game (.ofChecksum 7)⟩]⟩

/-- A recording of one frame, in which the player leaves. -/
theorem opens_leaving (name : String) :
    ∃ tape, ofBytes name (recordingOf 1 [leaving]) = .ok tape ∧
      tape.sheet = { frameCount := 1 } ∧ ReadsBack tape [leaving] :=
  readsBack_recordingOf name 1 rfl (by simp [leaving, Body.Fits])
    (by simp [leaving, Batch.InRange, Body.InRange])

/-- The frame in which the player leaves does not lead to the checksum 7. -/
theorem run_start_leaving :
    ∃ tape session, ofBytes "leaving.rep" (recordingOf 1 [leaving]) = .ok tape ∧
      start tape = .ok session ∧
      ∃ final, run (Store.inFolder "") session Files.Tree.empty =
          (.ok (.diverged 0 7 (Script.checksum ⟨{}, [leaving]⟩ 0)), final, Files.Tree.empty) ∧
        final.reports.toList = [Script.report ⟨{}, [leaving]⟩ 0] := by
  obtain ⟨tape, opened, sheet, reads⟩ := opens_leaving "leaving.rep"
  have valid : Setup.ofSheet tape.sheet = .ok {} := by
    rw [sheet]
    exact Setup.ofSheet_of_empty rfl
  have inside : 0 < tape.frameCount.toNat := by
    rw [Tape.frameCount, sheet]
    decide
  have differs : 7 ≠ Script.checksum ⟨{}, [leaving]⟩ 0 := by decide +kernel
  obtain ⟨session, started, diverges, -⟩ :=
    run_start (Store.inFolder "") Files.Tree.empty valid reads (by decide)
  obtain ⟨final, runs, -, -, reports⟩ := diverges 0 inside 7 rfl differs
    (fun earlier before => absurd before (Nat.not_lt_zero earlier))
  exact ⟨tape, session, opened, started, final, runs, reports⟩

end Session

end MatchTape.Playback
