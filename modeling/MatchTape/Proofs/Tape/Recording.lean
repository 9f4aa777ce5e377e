import MatchTape.Proofs.Tape.Draft
import MatchTape.Proofs.World.Arena
import MatchTape.Tape.Recording

/-!
# What a host records

A history is what a host was given to record: the setup of the match, how often
checksums are reported, and the commands of every frame.  After any number of frames the
recording holds the batches that the history has for them, and its arena is the one that
the commands lead to.
-/

namespace MatchTape.Tape

open Packet Record World

/-- A match with the commands that its host was given frame by frame. -/
structure History where
  setup : Setup
  interval : UInt32
  host : UInt8
  frames : List (List Command)

namespace History

def commands (history : History) (frame : Nat) : List Command :=
  history.frames.getD frame []

def arena (history : History) : Nat → Arena
  | 0 => .begin history.setup
  | frame + 1 => (history.arena frame).playFrame (history.commands frame)

def checksum (history : History) (frame : Nat) : UInt32 :=
  (history.arena (frame + 1)).checksum

def report (history : History) (frame : Nat) : List Command :=
  if Recording.reports history.interval (.ofNat frame) then
    [Recording.checksumReport history.host (.ofNat frame) (history.checksum frame)]
  else []

def batch (history : History) (frame : Nat) : Batch :=
  ⟨.ofNat frame, history.commands frame ++ history.report frame⟩

def batches (history : History) (count : Nat) : List Batch :=
  ((List.range count).map history.batch).filter (!·.commands.isEmpty)

theorem at_arena (history : History) (frame : Nat) :
    Arena.At history.setup (.ofNat frame) (history.arena frame) := by
  induction frame with
  | zero => exact Arena.at_begin history.setup
  | succ frame ih =>
      rw [UInt32.ofNat_add]
      exact ih.playFrame (history.commands frame)

theorem batches_succ (history : History) (count : Nat) :
    history.batches (count + 1) =
      history.batches count ++ [history.batch count].filter (!·.commands.isEmpty) := by
  rw [batches, List.range_succ, List.map_append, List.filter_append, List.map_singleton]
  rfl

/-- A frame with commands has its batch among those that are written down. -/
theorem batch_mem_batches (history : History) {count frame : Nat} (inside : frame < count)
    (filled : (history.batch frame).commands ≠ []) :
    history.batch frame ∈ history.batches count :=
  List.mem_filter.mpr ⟨List.mem_map_of_mem (List.mem_range.mpr inside), by simpa using filled⟩

theorem commands_mem (history : History) {frame : Nat} (inside : frame < history.frames.length) :
    history.commands frame ∈ history.frames := by
  rw [commands, List.getD_eq_getElem?_getD, List.getElem?_eq_getElem inside, Option.getD_some]
  exact List.getElem_mem inside

/-- What is written down for frames is what was given for them, and reports. -/
theorem forall_batches (history : History) {property : Command → Prop}
    (given : ∀ commands ∈ history.frames, ∀ command ∈ commands, property command)
    (reports : ∀ host frame checksum, property (Recording.checksumReport host frame checksum)) :
    ∀ batch ∈ history.batches history.frames.length, ∀ command ∈ batch.commands,
      property command := by
  intro batch listed command member
  obtain ⟨frame, inside, rfl⟩ := List.mem_map.mp (List.mem_filter.mp listed).1
  rcases List.mem_append.mp member with member | member
  · exact given _ (history.commands_mem (List.mem_range.mp inside)) command member
  · rw [report] at member
    split at member
    · rw [List.mem_singleton.mp member]
      exact reports _ _ _
    · exact absurd member List.not_mem_nil

end History

namespace Recording

theorem sent_checksumReport (host : UInt8) (frame checksum : UInt32) :
    (checksumReport host frame checksum).sent = checksumReport host frame checksum := by
  have whole : (Message.ofChecksum checksum).sent = Message.ofChecksum checksum :=
    Message.sent_of_isEncodable rfl
  rw [checksumReport, Command.sent, Body.sent, whole]
  rfl

theorem checksum?_checksumReport (host : UInt8) (frame checksum : UInt32) :
    (checksumReport host frame checksum).checksum? = some checksum :=
  congrArg some (UInt32.toUInt32_toInt32 checksum)

variable {history : History} {sheet : MatchSheet} {recording after : Recording} {count : Nat}

/-- The recording stands behind a number of frames of a history. -/
structure Records (history : History) (sheet : MatchSheet) (count : Nat)
    (recording : Recording) : Prop where
  arena : recording.arena = history.arena count
  held : recording.draft.Holds (history.batches count)
  sheet : recording.draft.sheet = sheet
  interval : recording.interval = history.interval
  host : recording.host = history.host

namespace Records

theorem frame (records : Records history sheet count recording) :
    recording.arena.frame = .ofNat count := by
  rw [records.arena, (history.at_arena count).frame]

/-- A frame that is recorded comes to what the history says of it. -/
theorem record (records : Records history sheet count recording) {checksum : UInt32}
    (recorded : record (history.commands count) recording = .ok checksum after) :
    Records history sheet (count + 1) after ∧ checksum = history.checksum count := by
  have arena : ((history.commands count).foldl (fun arena command => arena.apply command)
      recording.arena).advance = history.arena (count + 1) := by
    rw [records.arena]
    rfl
  have batch : (⟨recording.arena.frame, history.commands count ++
      if reports recording.interval recording.arena.frame then
        [checksumReport recording.host recording.arena.frame (history.arena (count + 1)).checksum]
      else []⟩ : Batch) = history.batch count := by
    rw [records.frame, records.interval, records.host]
    rfl
  simp only [Recording.record, arena, batch] at recorded
  split at recorded
  · next draft added =>
      cases recorded
      obtain ⟨held, same⟩ := records.held.add added
      refine ⟨⟨rfl, ?_, same.trans records.sheet, records.interval, records.host⟩, rfl⟩
      rw [history.batches_succ]
      exact held
  · cases recorded

theorem mapM_record (begins : Records history sheet 0 recording)
    (inside : count ≤ history.frames.length) {checksums : List UInt32}
    (recorded : (history.frames.take count).mapM Recording.record recording =
      .ok checksums after) :
    Records history sheet count after ∧
      checksums = (List.range count).map history.checksum := by
  induction count generalizing checksums after with
  | zero =>
      cases recorded
      exact ⟨begins, rfl⟩
  | succ count ih =>
      have commands : history.frames[count] = history.commands count := by
        rw [History.commands, List.getD_eq_getElem?_getD, List.getElem?_eq_getElem inside,
          Option.getD_some]
      rw [List.take_succ_eq_append_getElem inside, commands, List.mapM_append,
        List.mapM_cons, List.mapM_nil] at recorded
      simp only [pure_bind, bind_assoc] at recorded
      change EStateM.bind _ _ recording = _ at recorded
      cases earlier : (history.frames.take count).mapM Recording.record recording with
      | error failure middle =>
          rw [EStateM.bind, earlier] at recorded
          cases recorded
      | ok found middle =>
          obtain ⟨stands, known⟩ := ih (Nat.le_of_succ_le inside) earlier
          rw [EStateM.bind, earlier] at recorded
          change EStateM.bind _ _ middle = _ at recorded
          cases last : Recording.record (history.commands count) middle with
          | error failure final =>
              rw [EStateM.bind, last] at recorded
              cases recorded
          | ok checksum final =>
              obtain ⟨done, same⟩ := stands.record last
              rw [EStateM.bind, last] at recorded
              cases recorded
              refine ⟨done, ?_⟩
              rw [known, same, List.range_succ, List.map_append, List.map_singleton]

/-- All messages of recorded frames have been accepted, so their runs cover them. -/
theorem encodable (records : Records history sheet count recording) {frame : Nat}
    (inside : frame < count) : ∀ command ∈ history.commands frame, ∀ message ∈ command.message?,
      message.isEncodable = true := by
  intro command member
  have listed : command ∈ (history.batch frame).commands := List.mem_append_left _ member
  have held := history.batch_mem_batches inside (List.ne_nil_of_mem listed)
  exact (records.held.accepted _ held).encodable command listed

end Records

theorem records_begin {interval : UInt32} (frames : List (List Command))
    (begins : begin sheet interval = .ok recording) :
    ∃ setup, Setup.ofSheet sheet = .ok setup ∧
      Records ⟨setup, interval, setup.hostSlot, frames⟩ sheet 0 recording := by
  unfold begin at begins
  cases valid : Setup.ofSheet sheet with
  | error refusal =>
      rw [valid] at begins
      cases begins
  | ok setup =>
      rw [valid] at begins
      cases begins
      exact ⟨setup, rfl, rfl, Draft.holds_begin sheet, rfl, rfl, rfl⟩

theorem begin_empty (interval : UInt32) :
    begin {} interval = .ok ⟨.begin {}, .begin {}, interval, 0⟩ := by
  rw [begin, Setup.ofSheet_of_empty rfl]
  rfl

end Recording

end MatchTape.Tape
