import MatchTape.Proofs.World.Restoring

/-!
# All of a state or nothing

A saved state may be any bytes, and what is wrong with it may be found at any of them.  Loading
works all of it out before it touches the arena: it fails and leaves the arena as it was, with the
commands that wait, or it leaves of the arena nothing but its setup.
-/

namespace MatchTape.World.Arena

open Packet

variable {setup : Setup} {arena after other found : Arena} {state : List UInt8}

/-! ## Loading step by step -/

def settle {α : Type} (result : Except Refusal α) : EStateM Refusal Arena α := fun arena =>
  match result with
  | .ok value => .ok value arena
  | .error refusal => .error refusal arena

def putState (setup : Setup) (state : List UInt8) : EStateM Refusal Arena Unit := do
  let (version, cursor) ← settle (readState Reader.word8 (.start state))
  if version ≠ stateVersion then
    throw (.unsupportedState version)
  let (map, cursor) ← settle (readState Reader.terminated cursor)
  if map ≠ setup.map then
    throw (.otherMap setup.map map)
  let (after, _) ← settle (readState (readFields setup) cursor)
  match after.walkers.keys.getLast? with
  | some highest =>
      if after.nextId ≤ highest then
        throw (.inconsistentState after.nextId highest)
      else
        set after
  | none => set after

def loadInPlace (state : List UInt8) : EStateM Refusal Arena Unit := do
  match (← get).setup with
  | none => throw .noSetup
  | some setup => putState setup state

/-- The action puts an arena in the place of another as the result says, or it fails and leaves the
other one there. -/
def InPlace (action : EStateM Refusal Arena Unit) (result : Except Refusal Arena) : Prop :=
  ∀ arena, action arena =
    match result with
    | .ok after => .ok () after
    | .error refusal => .error refusal arena

namespace InPlace

variable {refusal : Refusal}

theorem set (after : Arena) : InPlace (set after) (pure after) :=
  fun _ => rfl

theorem throw (refusal : Refusal) : InPlace (throw refusal) (throw refusal) :=
  fun _ => rfl

theorem throw_bind {α β : Type} {skipped : α → EStateM Refusal Arena Unit}
    {omitted : β → Except Refusal Arena} (refusal : Refusal) :
    InPlace (MonadExcept.throw refusal >>= skipped) (MonadExcept.throw refusal >>= omitted) :=
  fun _ => rfl

theorem bind {α : Type} {result : Except Refusal α} {next : α → EStateM Refusal Arena Unit}
    {rest : α → Except Refusal Arena} (following : ∀ value, InPlace (next value) (rest value)) :
    InPlace (settle result >>= next) (result >>= rest) := by
  intro arena
  cases result with
  | ok value => exact following value arena
  | error refusal => rfl

theorem ite {holds : Prop} [Decidable holds] {first second : EStateM Refusal Arena Unit}
    {one two : Except Refusal Arena} (yes : InPlace first one) (no : InPlace second two) :
    InPlace (if holds then first else second) (if holds then one else two) := by
  split
  · exact yes
  · exact no

end InPlace

theorem inPlace_putState (setup : Setup) (state : List UInt8) :
    InPlace (putState setup state) (ofState setup state) := by
  refine .bind fun version => .ite (.throw_bind _) ?_
  refine .bind fun map => .ite (.throw_bind _) ?_
  refine .bind fun fields => ?_
  obtain ⟨after, behind⟩ := fields
  dsimp only
  cases after.walkers.keys.getLast? with
  | none => exact .set after
  | some highest => exact .ite (.throw _) (.set after)

theorem loadInPlace_eq (state : List UInt8) (arena : Arena) :
    loadInPlace state arena =
      match arena.load state with
      | .ok after => .ok () after
      | .error refusal => .error refusal arena := by
  have begun : loadInPlace state arena =
      (match arena.setup with
        | none => throw .noSetup
        | some setup => putState setup state : EStateM Refusal Arena Unit) arena := rfl
  rw [begun, load]
  cases arena.setup with
  | none => rfl
  | some setup => exact inPlace_putState setup state arena

theorem loadInPlace_eq_ok_iff :
    loadInPlace state arena = .ok () after ↔ arena.load state = .ok after := by
  rw [loadInPlace_eq]
  cases arena.load state with
  | ok loaded =>
      constructor
      · rintro ⟨⟩
        rfl
      · rintro ⟨⟩
        rfl
  | error refusal => exact ⟨nofun, nofun⟩

/-! ## What a state describes -/

/-- The setup is only handed on to the arena that is read. -/
theorem readFields_eq_map (setup other : Setup) :
    readFields other = (fun arena => { arena with setup := some other }) <$> readFields setup := by
  simp only [readFields, map_bind, map_pure]

theorem readFields_of_readFields {cursor stopped : Cursor}
    (read : readFields setup cursor = .ok arena stopped) (other : Setup) :
    readFields other cursor = .ok { arena with setup := some other } stopped := by
  rw [readFields_eq_map setup other]
  change EStateM.map _ _ cursor = _
  rw [EStateM.map, read]

/-- A state that one match accepts is accepted by the matches on the same map and by no others, and
describes the same arena in all of them. -/
theorem ofState_iff_of_ofState (loaded : ofState setup state = .ok arena) (another : Setup) :
    ofState another state = .ok found ↔
      another.map = setup.map ∧ found = { arena with setup := some another } := by
  obtain ⟨version, map, stopped, current, name, fields, above⟩ := ofState_eq_ok_iff.mp loaded
  have others := readFields_of_readFields fields another
  constructor
  · intro accepted
    obtain ⟨_, _, _, currentToo, nameToo, fieldsToo, -⟩ := ofState_eq_ok_iff.mp accepted
    rw [current] at currentToo
    cases currentToo
    obtain ⟨same, rfl⟩ := EStateM.Result.ok.inj (name.symm.trans nameToo)
    rw [others] at fieldsToo
    cases fieldsToo
    exact ⟨same.symm, rfl⟩
  · rintro ⟨same, rfl⟩
    exact ofState_eq_ok_iff.mpr ⟨version, map, stopped, current, same ▸ name, others, above⟩

/-- A state is loaded as a whole or not at all, whatever its bytes and whatever the arena holds.
Loading that fails leaves the arena as it was.  Otherwise the match goes on with no command waiting
and with its next id above all ids in use.  The rest is told by the state alone: every other arena
whose match is on the same map comes to the same, and no others load the state. -/
theorem loadInPlace_whole (state : List UInt8) (arena : Arena) :
    (∀ refusal after, loadInPlace state arena = .error refusal after →
      after = arena ∧ arena.load state = .error refusal) ∧
    ∀ after, loadInPlace state arena = .ok () after →
      arena.load state = .ok after ∧ after.setup = arena.setup ∧ after.pending = #[] ∧
        (∀ id ∈ after.walkers, id < after.nextId) ∧
        ∀ other found, loadInPlace state other = .ok () found ↔
          other.setup.map Setup.map = arena.setup.map Setup.map ∧
            found = { after with setup := other.setup } := by
  constructor
  · intro refusal after failed
    rw [loadInPlace_eq] at failed
    split at failed
    · cases failed
    · next refused =>
        cases failed
        exact ⟨rfl, refused⟩
  · intro after done
    have loaded := loadInPlace_eq_ok_iff.mp done
    obtain ⟨setup, known, accepted⟩ := load_eq_ok_iff.mp loaded
    have stands := at_of_ofState accepted
    refine ⟨loaded, stands.setup.trans known.symm, stands.pending, stands.issued,
      fun other found => ?_⟩
    rw [loadInPlace_eq_ok_iff, load_eq_ok_iff, known, Option.map_some, Option.map_eq_some_iff]
    constructor
    · rintro ⟨another, knownToo, acceptedToo⟩
      obtain ⟨same, rfl⟩ := (ofState_iff_of_ofState accepted another).mp acceptedToo
      exact ⟨⟨another, knownToo, same⟩, by rw [knownToo]⟩
    · rintro ⟨⟨another, knownToo, same⟩, rfl⟩
      rw [knownToo]
      exact ⟨another, rfl, (ofState_iff_of_ofState accepted another).mpr ⟨same, rfl⟩⟩

/-- A state of three walkers, two of which share an id, with a byte behind it.  The last of them has
a target, which is announced by an odd byte. -/
def crowdedState : List UInt8 :=
  let place : List UInt8 := [0, 0, 0, 0, 0, 0, 0, 0]
  [1, 0, 9, 0, 0, 0, 7, 0, 0, 0, 6, 0, 0, 0, 3, 0, 0, 0] ++ [5, 0, 0, 0, 1] ++ place ++ [0] ++
    [2, 0, 0, 0, 1] ++ place ++ [0] ++ [5, 0, 0, 0, 3] ++ place ++ [8] ++ place ++ [255]

/-- Of the two walkers with one id the later is loaded, and the player who was about to leave is
forgotten.  When bytes are missing in its target nothing is loaded and that player still waits. -/
theorem loadInPlace_whole_crowded :
    let waiting := (begin {}).apply ⟨{}, .playerLeave 0⟩
    (∃ crowded, loadInPlace crowdedState waiting = .ok () crowded ∧
      crowded.walkers.toList.map (fun entry => (entry.1, entry.2.owner)) = [(2, 1), (5, 3)] ∧
      crowded.pending = #[] ∧ (∀ id ∈ crowded.walkers, id < crowded.nextId) ∧
      loadInPlace crowdedState (begin { seed := 4 }) =
        .ok () { crowded with setup := some { seed := 4 } }) ∧
    ∃ refusal after, loadInPlace (crowdedState.take 66) waiting = .error refusal after ∧
      after.pending = #[⟨{}, .playerLeave 0⟩] := by
  intro waiting
  constructor
  · obtain ⟨crowded, loaded, entries⟩ : ∃ crowded, waiting.load crowdedState = .ok crowded ∧
        crowded.walkers.toList.map (fun entry => (entry.1, entry.2.owner)) = [(2, 1), (5, 3)] := by
      have known : (waiting.load crowdedState).toOption.map (fun crowded =>
          crowded.walkers.toList.map fun entry => (entry.1, entry.2.owner)) =
            some [(2, 1), (5, 3)] := by decide +kernel
      cases result : waiting.load crowdedState with
      | ok crowded =>
          rw [result] at known
          exact ⟨crowded, rfl, Option.some.inj known⟩
      | error refusal =>
          rw [result] at known
          cases known
    have done := loadInPlace_eq_ok_iff.mpr loaded
    obtain ⟨-, -, free, above, others⟩ := (loadInPlace_whole crowdedState waiting).2 crowded done
    exact ⟨crowded, done, entries, free, above, (others _ _).mpr ⟨rfl, rfl⟩⟩
  · have cut : waiting.load (crowdedState.take 66) =
        .error (.malformedState (.truncated 64 4 2)) := by decide +kernel
    obtain ⟨refusal, after, failed⟩ :
        ∃ refusal after, loadInPlace (crowdedState.take 66) waiting = .error refusal after := by
      rw [loadInPlace_eq, cut]
      exact ⟨_, _, rfl⟩
    obtain ⟨same, -⟩ := (loadInPlace_whole (crowdedState.take 66) waiting).1 refusal after failed
    exact ⟨refusal, after, failed, same ▸ rfl⟩

end MatchTape.World.Arena
