import MatchTape.Proofs.Tape.Offers
import MatchTape.Proofs.Tape.Recording

/-!
# Frames that cannot be recorded

A frame whose commands cannot be written down has been played before that is found out.  The
packets stay as they were, but the arena has gone on to the next frame.  A recording with such a
frame among others is therefore never the one that the other frames alone would have made.
-/

namespace MatchTape.Tape.Recording

open Packet Record World Attempts

variable {recording after : Recording} {setup : Setup} {frame : UInt32}

/-! ## Single frames -/

/-- What is to be written down for the next frame: its commands, and a report if one is due. -/
def offered (commands : List Command) (recording : Recording) : Batch where
  frame := recording.frame
  commands := commands ++
    if reports recording.interval recording.frame then
      [checksumReport recording.host recording.frame
        (recording.arena.playFrame commands).checksum]
    else []

theorem record_eq (commands : List Command) (recording : Recording) :
    record commands recording =
      match Draft.add (recording.offered commands) recording.draft with
      | .ok () draft =>
          .ok (recording.arena.playFrame commands).checksum
            { recording with arena := recording.arena.playFrame commands, draft }
      | .error failure draft =>
          .error failure { recording with arena := recording.arena.playFrame commands, draft } :=
  rfl

/-- A frame is played in any case; what is written down is left to the draft. -/
theorem left_record (commands : List Command) (recording : Recording) :
    left (record commands) recording =
      { recording with
        arena := recording.arena.playFrame commands
        draft := left (Draft.add (recording.offered commands)) recording.draft } := by
  rw [left, record_eq, left]
  cases Draft.add (recording.offered commands) recording.draft <;> rfl

/-- A frame that cannot be recorded has been played all the same. -/
theorem record_error {commands : List Command} {failure : Failure}
    (failed : record commands recording = .error failure after) :
    after = { recording with arena := recording.arena.playFrame commands } := by
  rw [record_eq] at failed
  split at failed
  · cases failed
  · next refused =>
      cases failed
      rw [Draft.eq_of_add_error refused]

/-! ## Sequences of frames -/

theorem at_final (stands : Arena.At setup frame recording.arena) (calls : List (List Command)) :
    Arena.At setup (frame + .ofNat calls.length) (final record calls recording).arena := by
  induction calls generalizing recording frame with
  | nil =>
      have same : frame + .ofNat 0 = frame := UInt32.add_zero frame
      rw [List.length_nil, same]
      exact stands
  | cons commands calls ih =>
      have next : Arena.At setup (frame + 1) (left (record commands) recording).arena := by
        rw [left_record]
        exact stands.playFrame commands
      have count : frame + .ofNat (calls.length + 1) = frame + 1 + .ofNat calls.length := by
        rw [UInt32.ofNat_add, UInt32.add_assoc, UInt32.add_comm 1]
        rfl
      rw [List.length_cons, count]
      exact ih next

theorem sheet_final (calls : List (List Command)) (recording : Recording) :
    (final record calls recording).draft.sheet = recording.draft.sheet := by
  induction calls generalizing recording with
  | nil => rfl
  | cons commands calls ih =>
      rw [final, ih, left_record]
      exact Draft.sheet_left_add _ _

/-- A frame that cannot be recorded leaves the packets as they were, but it has been played: the
recording has gone on to the next frame, with the arena that the commands lead to.  After any
calls, fewer than frames can be counted, the finished recording is the one of the successful calls
alone if and only if no call has failed. -/
theorem finish_eq_accepted_iff {sheet : MatchSheet} {interval : UInt32} {begun : Recording}
    (begins : begin sheet interval = .ok begun) (calls : List (List Command)) :
    (∀ commands failure after,
      record commands (final record calls begun) = .error failure after →
        after.draft = (final record calls begun).draft ∧
        after.arena = (final record calls begun).arena.playFrame commands ∧
        after.frame = (final record calls begun).frame + 1) ∧
    (calls.length < 2 ^ 32 →
      ((final record calls begun).finish =
          (final record (accepted record calls begun) begun).finish ↔
        accepted record calls begun = calls)) := by
  obtain ⟨setup, -, records⟩ := records_begin [] begins
  have starts : Arena.At setup 0 begun.arena := records.arena ▸ Arena.at_begin setup
  have stands := at_final starts calls
  constructor
  · intro commands failure after failed
    obtain rfl := record_error failed
    refine ⟨rfl, rfl, ?_⟩
    change (Arena.playFrame commands (final record calls begun).arena).frame =
      (final record calls begun).arena.frame + 1
    rw [(stands.playFrame commands).frame, stands.frame]
  · intro few
    constructor
    · intro same
      have frames := Draft.finish_frameCount_injective
        ((sheet_final _ begun).trans (sheet_final calls begun).symm) same
      have others := at_final starts (accepted record calls begun)
      rw [stands.frame, others.frame, UInt32.zero_add, UInt32.zero_add] at frames
      have sublist : (accepted record calls begun).Sublist calls := accepted_sublist calls begun
      have fewer := sublist.length_le
      have counts := congrArg UInt32.toNat frames
      rw [UInt32.toNat_ofNat_of_lt' few,
        UInt32.toNat_ofNat_of_lt' (Nat.lt_of_le_of_lt fewer few)] at counts
      exact sublist.eq_of_length counts.symm
    · intro all
      rw [all]

/-- In the first frame of an empty match a player leaves, and its recording is the same without
the calls that have failed, as there are none.  What cannot be recorded then has been played. -/
theorem finish_eq_accepted_iff_leaving :
    ∃ begun, begin {} 0 = .ok begun ∧
      let calls := [[⟨{}, .playerLeave 0⟩]]
      let recording := final record calls begun
      recording.finish = (final record (accepted record calls begun) begun).finish ∧
        ∃ failure after, record [⟨{}, .frameInfo 0⟩] recording = .error failure after ∧
          after.draft = recording.draft ∧ after.frame = recording.frame + 1 := by
  obtain ⟨refused, complete⟩ :=
    finish_eq_accepted_iff (begin_empty 0) [[⟨{}, .playerLeave 0⟩]]
  refine ⟨_, begin_empty 0, (complete (by decide)).mpr rfl, ?_⟩
  obtain ⟨failure, after, failed⟩ : ∃ failure after, record [⟨{}, .frameInfo 0⟩]
      (final record [[⟨{}, .playerLeave 0⟩]] ⟨.begin {}, .begin {}, 0, 0⟩) = .error failure after :=
    ⟨_, _, rfl⟩
  obtain ⟨draft, -, frame⟩ := refused _ _ _ failed
  exact ⟨failure, after, failed, draft, frame⟩

/-- An opening of a batch is not to be recorded as a command.  It fails, and yet the recording
then counts a frame. -/
theorem finish_ne_accepted :
    ∃ begun failure after, begin {} 0 = .ok begun ∧
      record [⟨{}, .frameInfo 0⟩] begun = .error failure after ∧
      begun.frame = 0 ∧ after.frame = 1 ∧
      after.finish ≠
        (final record (accepted record [[⟨{}, .frameInfo 0⟩]] begun) begun).finish := by
  refine ⟨_, _, _, begin_empty 0, rfl, rfl, rfl, ?_⟩
  decide

end MatchTape.Tape.Recording
