import MatchTape.Proofs.Packet.Steady
import MatchTape.Proofs.World.SavedState

/-!
# Restoring whatever was reached

Whatever a match has come to, by commands, frames and states that were loaded, its state
between two frames is restored exactly by any arena of the same match, provided that the
name of the map holds no NUL.  A name with NUL is saved in part only, and then no arena of the
match accepts the state.
-/

namespace MatchTape.World.Arena

open Packet

variable {setup : Setup} {frame : UInt32} {arena after other : Arena} {state : List UInt8}

/-- What a match can come to: commands come and frames are played, and a state may be loaded
whatever it was saved from. -/
inductive Reached (setup : Setup) : Arena → Prop where
  | begin : Reached setup (.begin setup)
  | apply {arena : Arena} (reached : Reached setup arena) (command : Command) :
      Reached setup (arena.apply command)
  | advance {arena : Arena} (reached : Reached setup arena) : Reached setup arena.advance
  | load {arena after : Arena} (reached : Reached setup arena) (state : List UInt8)
      (loaded : arena.load state = .ok after) : Reached setup after

/-! ## States that are loaded -/

theorem readFields_setup {cursor stopped : Cursor}
    (read : readFields setup cursor = .ok arena stopped) :
    arena.setup = some setup ∧ arena.pending = #[] := by
  unfold readFields at read
  simp only [Reader.run_bind] at read
  repeat' split at read
  all_goals cases read
  exact ⟨rfl, rfl⟩

theorem le_of_getLast? {highest id : UInt32}
    (last : arena.walkers.keys.getLast? = some highest) (member : id ∈ arena.walkers) :
    id ≤ highest := by
  obtain ⟨front, split⟩ := List.getLast?_eq_some_iff.mp last
  have ordered := Std.ExtTreeMap.ordered_keys (t := arena.walkers)
  rw [← Std.ExtTreeMap.mem_keys, split] at member
  rw [split] at ordered
  rcases List.mem_append.mp member with earlier | final
  · have below := (List.pairwise_append.mp ordered).2.2 id earlier highest List.mem_cons_self
    exact UInt32.le_of_lt (compareOfLessAndEq_eq_lt.mp below)
  · rw [List.mem_singleton.mp final]
    exact UInt32.le_refl highest

theorem readState_bind_eq_ok {α β : Type} {reader : Reader α} {cursor : Cursor}
    {next : α × Cursor → Except Refusal β} {result : β} :
    (readState reader cursor >>= next) = .ok result ↔
      ∃ value stopped, reader cursor = .ok value stopped ∧ next (value, stopped) = .ok result := by
  unfold readState
  cases reader cursor with
  | ok value stopped =>
      constructor
      · exact fun done => ⟨value, stopped, rfl, done⟩
      · rintro ⟨_, _, ⟨⟩, done⟩
        exact done
  | error fault stopped => exact ⟨nofun, fun ⟨_, _, found, _⟩ => nomatch found⟩

theorem refuse_eq_ok {α β : Type} {wrong : Prop} [Decidable wrong] {refusal : Refusal}
    {skipped : α → Except Refusal β} {next : Except Refusal β} {result : β} :
    (if wrong then throw refusal >>= skipped else next) = .ok result ↔
      ¬ wrong ∧ next = .ok result := by
  by_cases holds : wrong
  · rw [if_pos holds]
    exact ⟨nofun, fun ⟨right, _⟩ => absurd holds right⟩
  · rw [if_neg holds]
    exact ⟨fun done => ⟨holds, done⟩, And.right⟩

/-- A state is accepted if it has the version and names the map, and if the next id of the arena
that it goes on to describe lies above the highest one.  What stands behind does not matter. -/
theorem ofState_eq_ok_iff : ofState setup state = .ok arena ↔
    ∃ version map stopped,
      Reader.word8 (.start state) = .ok stateVersion version ∧
      Reader.terminated version = .ok setup.map map ∧
      readFields setup map = .ok arena stopped ∧
      ∀ highest ∈ arena.walkers.keys.getLast?, highest < arena.nextId := by
  simp only [ofState, readState_bind_eq_ok, refuse_eq_ok, ne_eq, Decidable.not_not]
  constructor
  · rintro ⟨_, version, current, rfl, _, map, same, rfl, found, stopped, fields, above⟩
    refine ⟨version, map, stopped, current, same, ?_⟩
    cases last : found.walkers.keys.getLast? with
    | none =>
        rw [last] at above
        cases above
        refine ⟨fields, fun highest member => ?_⟩
        rw [last] at member
        cases member
    | some highest =>
        rw [last] at above
        by_cases low : found.nextId ≤ highest
        · cases (if_pos low).symm.trans above
        · cases (if_neg low).symm.trans above
          refine ⟨fields, fun other member => ?_⟩
          rw [last, Option.mem_some_iff] at member
          exact member ▸ UInt32.not_le.mp low
  · rintro ⟨version, map, stopped, current, same, fields, above⟩
    refine ⟨_, version, current, rfl, _, map, same, rfl, arena, stopped, fields, ?_⟩
    split
    · next highest last => exact if_neg (UInt32.not_le.mpr (above highest last))
    · rfl

/-- Behind a state that is accepted no command waits, and all ids in use count as given out. -/
theorem at_of_ofState (loaded : ofState setup state = .ok arena) :
    At setup arena.frame arena := by
  obtain ⟨_, _, _, -, -, read, above⟩ := ofState_eq_ok_iff.mp loaded
  obtain ⟨same, free⟩ := readFields_setup read
  refine ⟨same, rfl, free, fun id member => ?_⟩
  cases last : arena.walkers.keys.getLast? with
  | none =>
      rw [List.getLast?_eq_none_iff] at last
      rw [← Std.ExtTreeMap.mem_keys, last] at member
      cases member
  | some highest => exact UInt32.lt_of_le_of_lt (le_of_getLast? last member) (above highest last)

theorem load_eq_ok_iff :
    arena.load state = .ok after ↔
      ∃ setup, arena.setup = some setup ∧ ofState setup state = .ok after := by
  unfold load
  cases arena.setup with
  | none => exact ⟨nofun, fun ⟨_, known, _⟩ => nomatch known⟩
  | some setup =>
      constructor
      · exact fun loaded => ⟨setup, rfl, loaded⟩
      · rintro ⟨_, ⟨⟩, loaded⟩
        exact loaded

/-! ## States that are reached -/

theorem At.clear (stands : At setup frame arena) : At setup frame { arena with pending := #[] } :=
  ⟨stands.setup, stands.frame, rfl, stands.issued⟩

/-- A frame plays the commands that wait. -/
theorem advance_eq_playFrame (arena : Arena) :
    arena.advance = ({ arena with pending := #[] } : Arena).playFrame arena.pending.toList := by
  rw [playFrame_eq, advance, executePending]
  rfl

namespace Reached

/-- But for commands that wait, an arena always stands between two frames of its match. -/
theorem stands (reached : Reached setup arena) :
    ∃ frame, At setup frame { arena with pending := #[] } := by
  induction reached with
  | begin => exact ⟨0, (at_begin setup).clear⟩
  | apply reached command ih => exact ih
  | advance reached ih =>
      obtain ⟨frame, stands⟩ := ih
      rw [advance_eq_playFrame]
      exact ⟨frame + 1, (stands.playFrame _).clear⟩
  | @load arena after reached state loaded ih =>
      obtain ⟨frame, stands⟩ := ih
      obtain ⟨other, known, loaded⟩ := load_eq_ok_iff.mp loaded
      cases known.symm.trans stands.setup
      exact ⟨after.frame, (at_of_ofState loaded).clear⟩

theorem load_eq (reached : Reached setup arena) (state : List UInt8) :
    arena.load state = ofState setup state := by
  obtain ⟨frame, stands⟩ := reached.stands
  have same : arena.setup = some setup := stands.setup
  rw [Arena.load, same]

end Reached

/-- Whatever a match has come to, once no command waits its state is loaded by any arena of
the match, whatever that one has come to: it becomes the very arena whose state was saved.
Only a match on a map whose name holds NUL loads none of its states. -/
theorem load_save (reached : Reached setup arena) (free : arena.pending = #[])
    (reachedOther : Reached setup other) :
    ('\x00' ∉ setup.map.toList → other.load arena.save = .ok arena) ∧
    ('\x00' ∈ setup.map.toList →
      other.load arena.save = .error (.otherMap setup.map (Text.beforeNul setup.map))) := by
  obtain ⟨frame, stands⟩ := reached.stands
  have whole : ({ arena with pending := #[] } : Arena) = arena := by rw [← free]
  rw [whole] at stands
  rw [reachedOther.load_eq, ofState_save_eq stands]
  constructor
  · intro plain
    rw [if_pos (Text.beforeNul_eq_self_iff.mpr plain)]
  · intro nul
    rw [if_neg fun same => Text.beforeNul_eq_self_iff.mp same nul]

/-- Two players, one of whom leaves in the first of two frames. -/
theorem load_save_leaving :
    let setup : Setup := { map := "Flat Plains", seed := 7, roster := [⟨0, "a", 0⟩, ⟨1, "b", 1⟩] }
    let arena := ((Arena.begin setup).apply ⟨{}, .playerLeave 0⟩).advance.advance
    (Arena.begin setup).load arena.save = .ok arena := by
  intro setup arena
  have reached : Reached setup arena := .advance (.advance (.apply .begin _))
  have free : arena.pending = #[] := rfl
  exact (load_save reached free .begin).1 (by decide)

/-- A match on a map whose name holds NUL does not load the state in which it begins. -/
theorem load_save_nul :
    Setup.ofSheet { map := "a\x00b" } = .ok { map := "a\x00b" } ∧
    (Arena.begin { map := "a\x00b" }).load (Arena.begin { map := "a\x00b" }).save =
      .error (.otherMap "a\x00b" "a") := by
  constructor
  · exact Setup.ofSheet_of_empty rfl
  · have cut : Text.beforeNul "a\x00b" = "a" := by decide
    have saved := ofState_save_eq (at_begin { map := "a\x00b" })
    rw [cut, if_neg (by decide)] at saved
    exact saved

end MatchTape.World.Arena
