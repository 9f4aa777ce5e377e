import MatchTape.Proofs.Playback.Reference
import MatchTape.Proofs.Tape.Recording

/-!
# Playing what was recorded

The host carries out the commands it is given, a playback those that arrive.  Frame by
frame both lead to the same arena, so no reported checksum is ever contradicted and the
playback ends where the recording ended.
-/

namespace MatchTape.Tape

open Packet World Playback

namespace History

def script (history : History) : Script :=
  ⟨history.setup, (history.batches history.frames.length).map Batch.sent⟩

/-- The frames of the history can be counted, and no command but the reports of the host
reports a checksum. -/
structure Plain (history : History) : Prop where
  room : history.frames.length < 2 ^ 32
  encodable : ∀ frame < history.frames.length, ∀ command ∈ history.commands frame,
    ∀ message ∈ command.message?, message.isEncodable = true
  silent : ∀ frame < history.frames.length, ∀ command ∈ history.commands frame,
    command.checksum? = none

variable {history : History} {frame : Nat}

theorem batch?_script (plain : history.Plain) (inside : frame < history.frames.length) :
    history.script.batch? frame =
      if (history.batch frame).commands.isEmpty then none else some (history.batch frame).sent := by
  have number : ∀ other < history.frames.length, (history.batch other).sent.frame.toNat = other :=
    fun other before => UInt32.toNat_ofNat_of_lt' (Nat.lt_trans before plain.room)
  rw [Script.batch?, script, batches, List.find?_map, List.find?_filter, List.find?_map]
  cases empty : (history.batch frame).commands.isEmpty with
  | true =>
      rw [if_pos rfl, List.find?_eq_none.mpr]
      · rfl
      · intro other listed found
        simp only [Function.comp_apply, decide_eq_true_eq, beq_iff_eq,
          number other (List.mem_range.mp listed)] at found
        rw [found.2, empty] at found
        exact Bool.false_ne_true found.1
  | false =>
      rw [if_neg Bool.false_ne_true, List.find?_range_eq_some.mpr]
      · rfl
      · refine ⟨?_, List.mem_range.mpr inside, fun other before => ?_⟩
        · simp only [Function.comp_apply, number frame inside, empty]
          exact decide_eq_true ⟨rfl, beq_self_eq_true frame⟩
        · simp only [Function.comp_apply, number other (Nat.lt_trans before inside),
            Bool.not_eq_true', decide_eq_false_iff_not, beq_iff_eq]
          exact fun found => Nat.ne_of_lt before found.2

/-- The report of a frame arrives as it was sent. -/
theorem map_sent_report (history : History) (frame : Nat) :
    (history.report frame).map Command.sent = history.report frame := by
  unfold report
  split
  · rw [List.map_singleton, Recording.sent_checksumReport]
  · rfl

theorem checksums_sent_batch (plain : history.Plain) (inside : frame < history.frames.length) :
    (history.batch frame).sent.commands.filterMap Command.checksum? =
      if Recording.reports history.interval (.ofNat frame) then [history.checksum frame]
      else [] := by
  have silent : ((history.commands frame).map Command.sent).filterMap Command.checksum? = [] := by
    refine List.filterMap_eq_nil_iff.mpr fun arrived member => ?_
    obtain ⟨command, listed, rfl⟩ := List.mem_map.mp member
    rw [Command.checksum?_sent (plain.encodable frame inside command listed),
      plain.silent frame inside command listed]
  rw [Batch.sent, batch, List.map_append, List.filterMap_append, silent, map_sent_report, report]
  split
  · rw [List.filterMap_cons_some (Recording.checksum?_checksumReport _ _ _)]
    rfl
  · rfl

/-- The playback is given the commands of a frame as they arrive. -/
theorem orders_script (plain : history.Plain) (inside : frame < history.frames.length) :
    history.script.orders frame = (history.commands frame).map Command.sent := by
  have given : ((history.commands frame ++ history.report frame).map Command.sent).filter
      (·.checksum?.isNone) = (history.commands frame).map Command.sent := by
    rw [List.map_append, List.filter_append, map_sent_report, List.filter_eq_self.mpr,
      List.filter_eq_nil_iff.mpr, List.append_nil]
    · intro command member
      rw [report] at member
      split at member
      · rw [List.mem_singleton.mp member, Recording.checksum?_checksumReport]
        exact Bool.false_ne_true
      · exact absurd member List.not_mem_nil
    · intro arrived member
      obtain ⟨command, listed, rfl⟩ := List.mem_map.mp member
      rw [Command.checksum?_sent (plain.encodable frame inside command listed),
        plain.silent frame inside command listed]
      rfl
  rw [Script.orders, batch?_script plain inside]
  cases empty : (history.batch frame).commands.isEmpty with
  | true =>
      have nothing := List.append_eq_nil_iff.mp (List.isEmpty_iff.mp empty)
      rw [nothing.1]
      rfl
  | false => exact given

/-- The playback expects the checksum of a frame if it was reported. -/
theorem expected?_script (plain : history.Plain) (inside : frame < history.frames.length) :
    history.script.expected? frame =
      if Recording.reports history.interval (.ofNat frame) then some (history.checksum frame)
      else none := by
  have found := checksums_sent_batch plain inside
  rw [Script.expected?, batch?_script plain inside]
  cases empty : (history.batch frame).commands.isEmpty with
  | true =>
      rw [Batch.sent, List.isEmpty_iff.mp empty] at found
      cases due : Recording.reports history.interval (.ofNat frame) with
      | false => rfl
      | true =>
          rw [due] at found
          cases found
  | false =>
      change (history.batch frame).sent.commands.findSome? Command.checksum? = _
      rw [← List.head?_filterMap, found]
      cases Recording.reports history.interval (.ofNat frame) <;> rfl

/-! ## Two arenas -/

/-- Host and playback see the same arena between frames. -/
theorem arena_script (plain : history.Plain) (inside : frame ≤ history.frames.length) :
    history.script.arena frame = history.arena frame := by
  induction frame with
  | zero => rfl
  | succ frame ih =>
      rw [Script.arena, ih (Nat.le_of_succ_le inside), orders_script plain inside,
        Arena.playFrame_map_sent]
      rfl

theorem checksum_script (plain : history.Plain) (inside : frame < history.frames.length) :
    history.script.checksum frame = history.checksum frame :=
  congrArg Arena.checksum (arena_script plain inside)

/-- No report of the host is contradicted. -/
theorem contradicts_script (plain : history.Plain) (inside : frame < history.frames.length) :
    history.script.contradicts frame = false := by
  rw [Script.contradicts, expected?_script plain inside, checksum_script plain inside]
  cases Recording.reports history.interval (.ofNat frame) with
  | true => exact bne_self_eq_false (history.checksum frame)
  | false => rfl

theorem accumulator_script (plain : history.Plain) (inside : frame ≤ history.frames.length) :
    history.script.accumulator frame =
      Digest.Fold.checksums 0 ((List.range frame).map history.checksum) := by
  have same : (List.range frame).map history.script.checksum =
      (List.range frame).map history.checksum :=
    List.map_congr_left fun earlier member =>
      checksum_script plain (Nat.lt_of_lt_of_le (List.mem_range.mp member) inside)
  rw [Script.accumulator, same]

theorem reports_ofNat (interval : UInt32) {frame : Nat} (room : frame < 2 ^ 32) :
    Recording.reports interval (.ofNat frame) =
      decide (interval ≠ 0 ∧ frame % interval.toNat = 0) := by
  have rest : (UInt32.ofNat frame % interval == 0) = decide (frame % interval.toNat = 0) := by
    rw [Bool.eq_iff_iff, beq_iff_eq, decide_eq_true_eq, ← UInt32.toNat_inj, UInt32.toNat_mod,
      UInt32.toNat_ofNat_of_lt' room]
    rfl
  rw [Recording.reports, rest, Bool.decide_and, bne]
  congr 1
  rw [Bool.eq_iff_iff]
  simp

theorem report_script (plain : history.Plain) (inside : frame < history.frames.length) :
    history.script.report frame = {
      frame := .ofNat frame
      checksum := history.checksum frame
      expected := if Recording.reports history.interval (.ofNat frame) then
        some (history.checksum frame) else none
      accumulator := Digest.Fold.checksums 0 ((List.range (frame + 1)).map history.checksum)
      diverged := false } := by
  rw [Script.report, checksum_script plain inside, expected?_script plain inside,
    accumulator_script plain inside, contradicts_script plain inside]

theorem map_report_script (plain : history.Plain) :
    (List.range history.frames.length).map history.script.report =
      ((List.range history.frames.length).map history.checksum).zipIdx.map
        fun (checksum, frame) => {
          frame := .ofNat frame
          checksum
          expected := if history.interval ≠ 0 ∧ frame % history.interval.toNat = 0 then
            some checksum else none
          accumulator := Digest.Fold.checksums 0
            (((List.range history.frames.length).map history.checksum).take (frame + 1))
          diverged := false } := by
  refine List.ext_getElem ?_ fun frame within _ => ?_
  · simp only [List.length_map, List.length_range, List.length_zipIdx]
  · have inside : frame < history.frames.length := by simpa using within
    have first : ((List.range history.frames.length).map history.checksum).take (frame + 1) =
        (List.range (frame + 1)).map history.checksum := by
      rw [← List.map_take, List.take_range, Nat.min_eq_left inside]
    have report := report_script plain inside
    rw [reports_ofNat history.interval (Nat.lt_trans inside plain.room)] at report
    simp only [List.getElem_map, List.getElem_zipIdx, List.getElem_range, Nat.zero_add, first,
      report, decide_eq_true_eq]

theorem getLastD_checksums (history : History) (count : Nat) :
    ((List.range count).map history.checksum).getLastD (history.arena 0).checksum =
      (history.arena count).checksum := by
  cases count with
  | zero => rfl
  | succ count =>
      rw [List.range_succ, List.map_append, List.map_singleton, List.getLastD_concat]
      rfl

/-- The batches that arrive keep the order in which they were written down, and none of
them reports two checksums. -/
theorem regular_script (plain : history.Plain)
    (ascending : (history.batches history.frames.length).Pairwise
      fun first second => first.frame < second.frame) : history.script.Regular := by
  refine ⟨List.pairwise_map.mpr ascending, fun arrived member => ?_⟩
  obtain ⟨batch, listed, rfl⟩ := List.mem_map.mp member
  obtain ⟨frame, inside, rfl⟩ := List.mem_map.mp (List.mem_filter.mp listed).1
  rw [checksums_sent_batch plain (List.mem_range.mp inside)]
  split
  · exact Nat.le_refl 1
  · exact Nat.zero_le 1

end History

end MatchTape.Tape

namespace MatchTape.Playback

open Packet Record World Tape

namespace Session

/-- What was recorded frame by frame, in no more frames than can be numbered, plays back
without contradiction.  The recording opens, its playback ends behind as many frames as were
recorded, at the checksum that the last of them led to, and every frame is reported with the
checksum that recording it gave; a checksum is expected in exactly those frames that the
interval divides. -/
theorem run_recorded {σ : Type} (store : Store σ) (shelf : σ) (name : String)
    {sheet : MatchSheet} {interval : UInt32} {begun finished : Recording}
    {frames : List (List Command)} {checksums : List UInt32}
    (begins : Recording.begin sheet interval = .ok begun)
    (recorded : frames.mapM Recording.record begun = .ok checksums finished)
    (room : frames.length < 2 ^ 32)
    (size : { sheet with frameCount := .ofNat frames.length }.bytes.length < 2 ^ 32)
    (fits : ∀ commands ∈ frames, ∀ command ∈ commands, command.body.Fits)
    (inRange : ∀ commands ∈ frames, ∀ command ∈ commands, command.body.InRange)
    (silent : ∀ commands ∈ frames, ∀ command ∈ commands, command.checksum? = none) :
    ∃ tape session final, Tape.ofBytes name finished.finish = .ok tape ∧
      start tape = .ok session ∧
      run store session shelf =
        (.ok (.completed (.ofNat frames.length) (checksums.getLastD begun.arena.checksum)
          (Digest.Fold.checksums 0 checksums)), final, shelf) ∧
      final.reports.toList = checksums.zipIdx.map fun (checksum, frame) => {
        frame := .ofNat frame
        checksum
        expected := if interval ≠ 0 ∧ frame % interval.toNat = 0 then some checksum else none
        accumulator := Digest.Fold.checksums 0 (checksums.take (frame + 1))
        diverged := false } := by
  obtain ⟨setup, valid, stands⟩ := Recording.records_begin frames begins
  let history : History := ⟨setup, interval, setup.hostSlot, frames⟩
  have whole : (frames.take frames.length).mapM Recording.record begun =
      .ok checksums finished := by
    rw [List.take_length]
    exact recorded
  obtain ⟨records, known⟩ := stands.mapM_record (Nat.le_refl _) whole
  have plain : history.Plain := ⟨room, fun _ inside => records.encodable inside,
    fun _ inside => silent _ (history.commands_mem inside)⟩
  have finish : finished.finish = finished.draft.finish (.ofNat frames.length) := by
    rw [Recording.finish, records.frame]
  obtain ⟨tape, opened, written, fresh, unread⟩ :=
    Draft.ofBytes_finish finished.draft (records.sheet ▸ size) name
  have reads : ReadsBack tape history.script.batches :=
    records.held.readsBack (history.forall_batches fits fun _ _ _ => trivial)
      (history.forall_batches inRange fun _ _ _ => trivial) fresh unread
  have frameCount : tape.frameCount = .ofNat frames.length :=
    congrArg MatchSheet.frameCount written
  have count : tape.frameCount.toNat = frames.length := by
    rw [frameCount, UInt32.toNat_ofNat_of_lt' room]
  have started : start tape = .ok (resume tape (.begin setup) 0) := by
    have same : Setup.ofSheet tape.sheet = .ok setup := by
      rw [written, records.sheet]
      exact valid
    rw [start, same]
  obtain ⟨final, runs, done⟩ := run_completes store shelf reads
    (history.regular_script plain records.held.ascending)
    fun frame inside => history.contradicts_script plain (count ▸ inside)
  rw [count] at runs done
  refine ⟨tape, _, final, finish ▸ opened, started, ?_, ?_⟩
  · have last := history.arena_script plain (Nat.le_refl _)
    have folded := history.accumulator_script plain (Nat.le_refl _)
    change history.script.arena frames.length = _ at last
    change history.script.accumulator frames.length = _ at folded
    rw [runs, frameCount, known, stands.arena, History.getLastD_checksums, ← last, ← folded]
    rfl
  · rw [done.reports, known]
    exact history.map_report_script plain

/-- A match of two frames, in the first of which a player leaves, is recorded with a report
of each frame and plays back to its end. -/
theorem run_recorded_leaving :
    ∃ checksums finished,
      [[Command.mk {} (.playerLeave 0)], []].mapM Recording.record
        ⟨.begin {}, .begin {}, 1, 0⟩ = .ok checksums finished ∧
      ∃ tape session final, Tape.ofBytes "leaving" finished.finish = .ok tape ∧
        start tape = .ok session ∧
        run (Store.inFolder "") session Files.Tree.empty =
          (.ok (.completed 2 (checksums.getLastD (Arena.begin {}).checksum)
            (Digest.Fold.checksums 0 checksums)), final, Files.Tree.empty) := by
  have begins := Recording.begin_empty 1
  obtain ⟨checksums, finished, recorded⟩ : ∃ checksums finished,
      [[Command.mk {} (.playerLeave 0)], []].mapM Recording.record
        ⟨.begin {}, .begin {}, 1, 0⟩ = .ok checksums finished := ⟨_, _, rfl⟩
  have only : ∀ commands ∈ [[Command.mk {} (.playerLeave 0)], []], ∀ command ∈ commands,
      command = ⟨{}, .playerLeave 0⟩ := by decide
  obtain ⟨tape, session, final, opened, started, runs, -⟩ :=
    run_recorded (Store.inFolder "") Files.Tree.empty "leaving" begins recorded
      (by decide) (by decide)
      (fun commands listed command member => only commands listed command member ▸ trivial)
      (fun commands listed command member => only commands listed command member ▸ trivial)
      (fun commands listed command member => only commands listed command member ▸ rfl)
  exact ⟨checksums, finished, recorded, tape, session, final, opened, started, runs⟩

end Session

end MatchTape.Playback
