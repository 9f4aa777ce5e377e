import MatchTape.Playback.Resumption
import MatchTape.Proofs.Playback.Lockstep
import MatchTape.Proofs.Playback.Reference
import MatchTape.Proofs.Record.Checkpoint
import MatchTape.Proofs.Record.Sizes
import MatchTape.Proofs.World.SavedState

/-!
# Resumptions end where the session would have ended

A session that is asked for a checkpoint saves its arena, its accumulator and its place on
the tape.  A resumption that loads them stands at the same frame of the same recording,
so it plays on in lockstep with a session that was never interrupted.
-/

namespace MatchTape.Playback

open Record World

/-- A store takes every checkpoint under the name, and afterwards it has the checkpoint
that the bytes of the record describe. -/
def Store.Keeps {σ : Type} (store : Store σ) (name : String) (shelf : σ) : Prop :=
  ∀ checkpoint : Checkpoint, ∃ after, store.save name checkpoint shelf = (.ok (), after) ∧
    store.load name after =
      match Checkpoint.ofBytes? checkpoint.bytes with
      | none => .error .badRecord
      | some found => .ok found

theorem Store.Keeps.load {σ : Type} {store : Store σ} {name : String} {shelf : σ}
    (keeps : store.Keeps name shelf) {checkpoint : Checkpoint} (short : checkpoint.Short) :
    ∃ after, store.save name checkpoint shelf = (.ok (), after) ∧
      store.load name after = .ok checkpoint := by
  obtain ⟨after, saved, loaded⟩ := keeps checkpoint
  refine ⟨after, saved, ?_⟩
  rw [loaded, Checkpoint.ofBytes?_bytes short]

namespace Session

variable {name : String} {contents : List UInt8} {tape : Tape} {setup : Setup} {played : Nat}
  {session other : Session}

theorem map_of_ofSheet {sheet : MatchSheet} (valid : Setup.ofSheet sheet = .ok setup) :
    setup.map = sheet.map := by
  unfold Setup.ofSheet at valid
  cases places : sheet.roster.mapM Place.ofSeat with
  | error refusal =>
      rw [places] at valid
      cases valid
  | ok roster =>
      rw [places] at valid
      cases valid
      rfl

theorem alike_start (opened : Tape.Opened name contents tape) (setup : Setup)
    (request : SaveRequest) :
    Alike tape setup 0 (resume tape (.begin setup) 0)
      ((resume tape (.begin setup) 0).requestCheckpoint request) := by
  have unread : ∀ last ∈ tape.lastFrame, last < UInt32.ofNat 0 := by
    intro last read
    rw [opened.unread] at read
    cases read
  exact ⟨Arena.at_begin setup, rfl, rfl, .refl tape, .refl tape, opened.within,
    ⟨rfl, rfl, unread, unread⟩, rfl, rfl⟩

theorem Alike.withinOther (alike : Alike tape setup played session other) :
    other.tape.Within := by
  constructor
  · rw [alike.level.position, alike.recordingOther.packetsStart, ← alike.recording.packetsStart]
    exact alike.within.start
  · rw [alike.level.position, alike.level.contents]
    exact alike.within.stop

/-- A session may be left for one that has forgotten what it read, if that stands at the
same place. -/
theorem Alike.resumed (alike : Alike tape setup played session other) {there : Tape}
    (recording : tape.SameRecording there) (position : there.position = other.tape.position)
    (unread : there.lastFrame = none) :
    Alike tape setup played session (resume there other.arena other.accumulator) := by
  refine ⟨alike.stands, alike.arena, alike.accumulator, alike.recording, recording, alike.within,
    ⟨?_, ?_, alike.level.earlier, ?_⟩, alike.running, rfl⟩
  · exact recording.contents.trans alike.recording.contents.symm
  · exact position.trans alike.level.position
  · intro last read
    rw [resume, unread] at read
    cases read

theorem short_checkpoint (opened : Tape.Opened name contents tape)
    (room : contents.length < 2 ^ 63) (nameRoom : (Text.utf8 name).length < 2 ^ 63)
    (same : setup.map = tape.sheet.map) (plain : '\x00' ∉ setup.map.toList)
    (stands : Arena.At setup (.ofNat played) session.arena)
    (recording : tape.SameRecording session.tape) : session.checkpoint.Short := by
  obtain ⟨record, short, sheet⟩ := opened.sheet
  have texts := MatchSheet.bounded_of_ofBytes? sheet
  have digest := length_utf8_digest_le contents
  have state := Arena.length_save_lt stands plain
  rw [same] at state
  refine ⟨?_, ?_, ?_, ?_, ?_⟩
  · change (Text.utf8 session.tape.name).length < 2 ^ 64
    rw [recording.name, opened.name_eq]
    omega
  · change (Text.utf8 session.tape.digest).length < 2 ^ 64
    rw [recording.digest, opened.digest_eq]
    omega
  · change (Text.utf8 session.tape.sheet.map).length < 2 ^ 64
    rw [recording.sheet]
    exact Nat.lt_of_le_of_lt texts.1 (by omega)
  · change (Text.utf8 session.tape.sheet.host).length < 2 ^ 64
    rw [recording.sheet]
    exact Nat.lt_of_le_of_lt texts.2 (by omega)
  · change session.arena.save.length < 2 ^ 64
    have map := texts.1
    omega

theorem run_requestCheckpoint {σ : Type} {store : Store σ} {shelf : σ} {saveName : String}
    {frame : UInt32} (opened : Tape.Opened name contents tape)
    (same : setup.map = tape.sheet.map) (plain : '\x00' ∉ setup.map.toList)
    (room : contents.length < 2 ^ 63) (nameRoom : (Text.utf8 name).length < 2 ^ 63)
    (keeps : store.Keeps saveName shelf) (first : 1 ≤ frame) (inside : frame ≤ tape.frameCount)
    (reached : frame ≤ (ending (play (resume tape (.begin setup) 0))).frame)
    (agrees : ∀ report ∈ (ending (play (resume tape (.begin setup) 0))).reports.toList,
      report.frame < frame → report.diverged = false) :
    ∃ early middle due after,
      play (resume tape (.begin setup) 0) =
        playFrames (tape.frameCount.toNat - frame.toNat) middle ∧
      run store ((resume tape (.begin setup) 0).requestCheckpoint ⟨frame, saveName⟩) shelf =
        (.ok (.saved frame saveName), due, after) ∧
      store.load saveName after = .ok due.checkpoint ∧
      Alike tape setup frame.toNat middle due ∧
      (∀ report ∈ early, report.frame < frame) ∧
      Onward early (resume tape (.begin setup) 0) middle := by
  have start := alike_start opened setup ⟨frame, saveName⟩
  have bound := tape.frameCount.toNat_lt
  have ahead : 0 < frame.toNat := UInt32.le_iff_toNat_le.mp first
  have last := UInt32.le_iff_toNat_le.mp inside
  have count := framesLeft_start tape setup
  have countAsked : ((resume tape (.begin setup) 0).requestCheckpoint
    ⟨frame, saveName⟩).framesLeft = tape.frameCount.toNat := count
  have asked : ((resume tape (.begin setup) 0).requestCheckpoint ⟨frame, saveName⟩).request =
      some ⟨.ofNat frame.toNat, saveName⟩ := by
    rw [UInt32.ofNat_toNat]
    rfl
  have total : frame.toNat + (tape.frameCount.toNat - frame.toNat) =
      0 + tape.frameCount.toNat := by
    omega
  simp only [play, count] at reached agrees ⊢
  obtain ⟨early, middle, due, goes, goesDue, alike, past, onward⟩ :=
    start.playFrames_due rfl asked ahead total (by omega) (UInt32.le_iff_toNat_le.mp reached)
      fun report member earlier => agrees report member (UInt32.lt_iff_toNat_lt.mpr earlier)
  have stands : due.frame = frame := by
    rw [Session.frame, alike.frameOther, UInt32.ofNat_toNat]
  have begins : (resume tape (.begin setup) 0).frame = 0 := (Arena.at_begin setup).frame
  have stays : ((resume tape (.begin setup) 0).requestCheckpoint
      ⟨frame, saveName⟩).outsideRequest? = none := by
    refine outsideRequest?_eq_none rfl ?_ inside
    change (resume tape (.begin setup) 0).frame < frame
    rw [begins]
    exact UInt32.lt_iff_toNat_lt.mpr ahead
  have short := short_checkpoint opened room nameRoom same plain alike.standsOther
    alike.recordingOther
  obtain ⟨after, saves, loads⟩ := keeps.load short
  have runs := run_due stays (by rw [play, countAsked]; exact goesDue) saves
  rw [stands] at runs
  exact ⟨early, middle, due, after, goes, runs, loads, alike,
    fun report member => UInt32.lt_iff_toNat_lt.mpr (past report member), onward⟩

end Session

namespace Resumption

open Session (outcome ending)

variable {name : String} {contents : List UInt8} {tape there : Tape} {setup : Setup}
  {session : Session}

theorem loadRecording_of_ofBytes (found : Tape.ofBytes name contents = .ok tape)
    (valid : Setup.ofSheet tape.sheet = .ok setup) (arena : Arena) :
    loadRecording name (.ok contents) (.begin arena) =
      .ok () ⟨.begin setup, .recordingLoaded, some tape, 0, #[]⟩ := by
  have opened : openTape name (.ok contents) = .ok (tape, setup) := by
    simp only [openTape, found, valid]
  simp only [loadRecording, atStage, begin, if_true, opened]

/-- Before its state is loaded, a checkpoint is judged by three marks. -/
theorem objection?_eq_none_iff {checkpoint : Checkpoint} :
    objection? tape checkpoint = none ↔
      checkpoint.playback = true ∧ checkpoint.digest = tape.digest ∧
        checkpoint.frame ≤ tape.frameCount := by
  rw [← UInt32.not_lt]
  unfold objection?
  constructor
  · intro belongs
    split at belongs
    · cases belongs
    · next playback =>
        split at belongs
        · cases belongs
        · next digest =>
            split at belongs
            · cases belongs
            · next inside => exact ⟨by simpa using playback, not_not.mp digest, inside⟩
  · rintro ⟨playback, digest, inside⟩
    rw [if_neg (by simp [playback]), if_neg (not_not_intro digest), if_neg inside]

/-- The checkpoint of a session puts arena, tape and accumulator where they were. -/
theorem loadCheckpoint_checkpoint (saveName : String)
    (recording : tape.SameRecording session.tape)
    (stands : Arena.At setup session.frame session.arena) (plain : '\x00' ∉ setup.map.toList)
    (inside : session.frame ≤ tape.frameCount) (fits : session.tape.position < 2 ^ 64)
    (sought : Tape.seek session.tape.position tape = .ok () there) :
    loadCheckpoint saveName (.ok session.checkpoint)
        ⟨.begin setup, .recordingLoaded, some tape, 0, #[]⟩ =
      .ok () ⟨session.arena, .checkpointLoaded, some there, session.accumulator, #[]⟩ := by
  have belongs : objection? tape session.checkpoint = none :=
    objection?_eq_none_iff.mpr ⟨rfl, recording.digest, inside⟩
  have state : (Arena.begin setup).load session.checkpoint.state = .ok session.arena := by
    rw [Arena.load, (Arena.at_begin setup).setup]
    exact Arena.ofState_save stands plain
  have offset : session.checkpoint.offset.toNat = session.tape.position :=
    UInt64.toNat_ofNat_of_lt' fits
  have frame : ¬ session.arena.frame ≠ session.checkpoint.frame := not_not_intro rfl
  simp only [loadCheckpoint, atStage, if_true, restore, belongs, state, if_neg frame, offset,
    sought]
  rfl

/-- A resumption comes to what the session plays that stands where it does. -/
theorem resume_eq (arena : Arena) (tape : Tape) (accumulator : UInt32) :
    ∃ resumed,
      resume ⟨arena, .checkpointLoaded, some tape, accumulator, #[]⟩ =
        (match outcome (Session.play (.resume tape arena accumulator)) with
        | .ok verdict => .ok verdict resumed
        | .error failure => .error failure resumed) ∧
      resumed.reports = (ending (Session.play (.resume tape arena accumulator))).reports := by
  cases plays : Session.play (.resume tape arena accumulator) with
  | ok halt final =>
      refine ⟨⟨final.arena, stageOf (final.verdict halt), none, accumulator, final.reports⟩, ?_,
        rfl⟩
      simp only [resume, atStage, if_true, plays, outcome]
  | error failure final =>
      refine ⟨⟨final.arena, .failed, none, accumulator, final.reports⟩, ?_, rfl⟩
      simp only [resume, atStage, if_true, plays, outcome]

/-- A resumption that loads the checkpoint of a session goes on like any session that is
alike, with reports of the frames from there on only. -/
theorem resume_checkpoint (saveName : String) {middle due : Session} {frame : UInt32}
    (opened : Tape.Opened name contents tape) (room : contents.length < 2 ^ 63)
    (alike : Session.Alike tape setup frame.toNat middle due) (free : middle.request = none)
    (plain : '\x00' ∉ setup.map.toList) (inside : frame ≤ tape.frameCount) :
    ∃ ready resumed,
      loadCheckpoint saveName (.ok due.checkpoint)
          ⟨.begin setup, .recordingLoaded, some tape, 0, #[]⟩ = .ok () ready ∧
      resume ready =
        (match outcome (Session.playFrames (tape.frameCount.toNat - frame.toNat) middle) with
        | .ok verdict => .ok verdict resumed
        | .error failure => .error failure resumed) ∧
      Session.Onward resumed.reports.toList middle
        (ending (Session.playFrames (tape.frameCount.toNat - frame.toNat) middle)) ∧
      ∀ report ∈ resumed.reports.toList, frame ≤ report.frame := by
  have stands : due.frame = frame := by
    rw [Session.frame, alike.frameOther, UInt32.ofNat_toNat]
  have dueStands : Arena.At setup due.frame due.arena := by
    have current := alike.standsOther
    rwa [UInt32.ofNat_toNat, ← stands] at current
  have fits : due.tape.position < 2 ^ 64 := by
    have stop := alike.withinOther.stop
    rw [alike.recordingOther.contents, opened.contents_eq] at stop
    omega
  obtain ⟨there, sought, recording, position, unread⟩ :=
    alike.recordingOther.seek alike.withinOther
  have ready := loadCheckpoint_checkpoint saveName alike.recordingOther dueStands plain
    (stands ▸ inside) fits sought
  have bound := tape.frameCount.toNat_lt
  have last := UInt32.le_iff_toNat_le.mp inside
  obtain ⟨same, more, later, goes, goesOn⟩ :=
    (alike.resumed recording position unread).playFrames free rfl
      (by omega : frame.toNat + (tape.frameCount.toNat - frame.toNat) < 2 ^ 32)
  have rest : Session.play (.resume there due.arena due.accumulator) =
      Session.playFrames (tape.frameCount.toNat - frame.toNat)
        (.resume there due.arena due.accumulator) := by
    rw [Session.play, Session.framesLeft_resume recording, ← stands]
    rfl
  obtain ⟨resumed, resumes, reports⟩ := resume_eq due.arena there due.accumulator
  have told : resumed.reports.toList = more := by
    rw [reports, rest, goesOn.reports]
    rfl
  refine ⟨_, resumed, ready, ?_, ?_, ?_⟩
  · rw [resumes, rest, same]
  · rw [told]
    exact goes
  · rw [told]
    exact fun report member => UInt32.le_iff_toNat_le.mpr (later report member)

/-- A session that is asked for a checkpoint at a frame of a recording which opens and fits
into memory saves it, if no frame before it fails or is contradicted.  A resumption that
loads recording and checkpoint then makes the same reports of all later frames as a session
that is never interrupted, and it comes to the same verdict or to the same failure. -/
theorem resume_as_uninterrupted {σ : Type} {store : Store σ} {shelf : σ} {saveName : String}
    {frame : UInt32} (found : Tape.ofBytes name contents = .ok tape)
    (started : Session.start tape = .ok session) (plain : '\x00' ∉ tape.sheet.map.toList)
    (room : contents.length < 2 ^ 63) (nameRoom : (Text.utf8 name).length < 2 ^ 63)
    (keeps : store.Keeps saveName shelf) (first : 1 ≤ frame) (inside : frame ≤ tape.frameCount)
    (reached : frame ≤ (session.run store shelf).2.1.frame)
    (agrees : ∀ report ∈ (session.run store shelf).2.1.reports.toList,
      report.frame < frame → report.diverged = false) (arena : Arena) :
    ∃ saved after loaded ready resumed,
      (session.requestCheckpoint ⟨frame, saveName⟩).run store shelf =
        (.ok (.saved frame saveName), saved, after) ∧
      loadRecording name (.ok contents) (.begin arena) = .ok () loaded ∧
      loadCheckpoint saveName (store.load saveName after) loaded = .ok () ready ∧
      resume ready =
        (match (session.run store shelf).1 with
        | .ok verdict => .ok verdict resumed
        | .error failure => .error failure resumed) ∧
      resumed.reports.toList =
        (session.run store shelf).2.1.reports.toList.filter (frame ≤ ·.frame) := by
  obtain ⟨setup, valid, rfl⟩ := Session.start_eq started
  have opened := Tape.opened_of_ofBytes found
  have map := Session.map_of_ofSheet valid
  rw [← map] at plain
  have whole : Session.run store (.resume tape (.begin setup) 0) shelf = _ :=
    Session.run_plain store shelf rfl
  rw [whole] at reached agrees ⊢
  obtain ⟨early, middle, due, after, plays, saves, loads, alike, past, onward⟩ :=
    Session.run_requestCheckpoint opened map plain room nameRoom keeps first inside reached agrees
  obtain ⟨ready, resumed, readied, resumes, goes, later⟩ :=
    resume_checkpoint saveName opened room alike onward.request plain inside
  refine ⟨due, after, _, ready, resumed, saves, loadRecording_of_ofBytes found valid arena,
    ?_, ?_, ?_⟩
  · rw [loads]
    exact readied
  · rw [plays]
    exact resumes
  · have before : early.filter (frame ≤ ·.frame) = [] :=
      List.filter_eq_nil_iff.mpr fun report member =>
        mt of_decide_eq_true (UInt32.not_le.mpr (past report member))
    have behind : resumed.reports.toList.filter (frame ≤ ·.frame) = resumed.reports.toList :=
      List.filter_eq_self.mpr fun report member => decide_eq_true (later report member)
    rw [plays, goes.reports, onward.reports]
    simp only [Session.resume, List.nil_append, List.filter_append, before, behind]

def leavingLate : Tape.Batch :=
  ⟨1, [⟨{ frame := 1 }, .playerLeave 0⟩, ⟨{ frame := 1 }, .game (.ofChecksum 7)⟩]⟩

def leavingContents : List UInt8 :=
  Tape.recordingOf 2 [leavingLate]

theorem opens_leavingContents :
    ∃ tape, Tape.ofBytes "leaving" leavingContents = .ok tape ∧
      tape.sheet = { frameCount := 2 } ∧ Tape.ReadsBack tape [leavingLate] :=
  Tape.readsBack_recordingOf "leaving" 2 rfl (by simp [leavingLate, Packet.Body.Fits])
    (by simp [leavingLate, Tape.Batch.InRange, Packet.Body.InRange])

/-- A resumption at the second frame finds that it does not lead to the checksum 7. -/
theorem resume_as_uninterrupted_leaving :
    ∃ tape session after loaded ready resumed,
      Tape.ofBytes "leaving" leavingContents = .ok tape ∧ Session.start tape = .ok session ∧
      (∃ saved, (session.requestCheckpoint ⟨1, "half"⟩).run (Store.inFolder "") Files.Tree.empty =
        (.ok (.saved 1 "half"), saved, after)) ∧
      loadRecording "leaving" (.ok leavingContents) (.begin .empty) = .ok () loaded ∧
      loadCheckpoint "half" ((Store.inFolder "").load "half" after) loaded = .ok () ready ∧
      resume ready =
        .ok (.diverged 1 7 (Script.checksum ⟨{}, [leavingLate]⟩ 1)) resumed := by
  obtain ⟨tape, opened, sheet, reads⟩ := opens_leavingContents
  have count : tape.frameCount = 2 := congrArg MatchSheet.frameCount sheet
  have started := Session.start_of_sheet tape sheet
  have keeps : (Store.inFolder "").Keeps "half" Files.Tree.empty := fun _ => ⟨_, rfl, rfl⟩
  have differs : Script.contradicts ⟨{}, [leavingLate]⟩ 1 = true := by decide +kernel
  have regular : Script.Regular ⟨{}, [leavingLate]⟩ := ⟨reads.ascending, by decide⟩
  have inside : 1 < tape.frameCount.toNat := by rw [count]; decide
  have agreed : ∀ earlier < 1, Script.contradicts ⟨{}, [leavingLate]⟩ earlier = false := by
    intro earlier before
    obtain rfl := Nat.lt_one_iff.mp before
    rfl
  obtain ⟨final, runs, done⟩ := Session.run_diverges (Store.inFolder "") Files.Tree.empty reads
    regular inside agreed rfl differs
  have reached : 1 ≤ final.frame := by
    rw [Session.frame, done.frame]
    decide
  have agrees : ∀ report ∈ final.reports.toList, report.frame < 1 → report.diverged = false := by
    intro report member early
    rw [done.reports] at member
    obtain ⟨frame, played, rfl⟩ := List.mem_map.mp member
    rcases frame with _ | _ | frame
    · exact agreed 0 Nat.one_pos
    · exact absurd early (by decide)
    · exact absurd (List.mem_range.mp played) (by omega)
  have plain : '\x00' ∉ tape.sheet.map.toList := by
    rw [sheet]
    decide
  have whole := resume_as_uninterrupted opened started plain (by decide) (by decide) keeps
    (by decide : (1 : UInt32) ≤ 1) (by rw [count]; decide) (by rw [runs]; exact reached)
    (by rw [runs]; exact agrees) .empty
  rw [runs] at whole
  obtain ⟨saved, after, loaded, ready, resumed, saves, loads, readied, resumes, -⟩ := whole
  exact ⟨tape, _, after, loaded, ready, resumed, opened, started, ⟨saved, saves⟩, loads, readied,
    resumes⟩
end Resumption

end MatchTape.Playback
