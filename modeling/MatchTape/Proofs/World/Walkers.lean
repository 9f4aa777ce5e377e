import MatchTape.World.Arena

/-!
# Walkers by their ids

A command asks the same of every arena: that a walker be created, that a player's walkers be
taken away, or that a walker be given a target.  Each of these is described by what stands
under an id afterwards.  None of them lets the next id go down or gives a walker to another
player, so a walker of a later arena stood in the earlier one or bears an id that was given
out in between.
-/

namespace MatchTape.World

open Packet

inductive Deed where
  | create (owner : UInt8) (position : Point)
  | remove (player : UInt8)
  | order (player : UInt8) (id : UInt32) (target : Option Point)
  | nothing
  deriving DecidableEq, Repr

namespace Deed

def on : Deed → Arena → Arena
  | create owner position, arena => arena.create owner position
  | remove player, arena => arena.removePlayer player
  | order player id target, arena => arena.order player id target
  | nothing, arena => arena

def ofMessage (player : UInt8) (message : Message) : Deed :=
  match message.arguments with
  | [.location x y _] =>
      if message.code = Arena.createCode then create player ⟨x, y⟩ else nothing
  | [.objectId id, .location x y _] =>
      if message.code = Arena.moveCode then order player id (some ⟨x, y⟩) else nothing
  | [.objectId id] =>
      if message.code = Arena.haltCode then order player id none else nothing
  | _ => nothing

def ofCommand (command : Command) : Deed :=
  match command.body with
  | .game message => ofMessage command.header.player message
  | .playerLeave player => remove player
  | .destroyPlayer index => if index < 256 then remove index.toUInt8 else nothing
  | _ => nothing

/-- Whether a deed is one that the messages of a player ask for. -/
def By (player : UInt8) : Deed → Prop
  | create owner _ => owner = player
  | remove _ => False
  | order owner _ _ => owner = player
  | nothing => True

theorem by_ofMessage (player : UInt8) (message : Message) :
    (ofMessage player message).By player := by
  unfold ofMessage
  split
  · split
    · rfl
    · trivial
  · split
    · rfl
    · trivial
  · split
    · rfl
    · trivial
  · trivial

theorem obey_eq (player : UInt8) (message : Message) (arena : Arena) :
    arena.obey player message = (ofMessage player message).on arena := by
  fun_cases ofMessage player message with
  | case1 x y z shape same | case3 id x y z shape same | case5 id shape same =>
      simp only [Arena.obey, shape, if_pos same, on]
  | case2 x y z shape other | case4 id x y z shape other | case6 id shape other =>
      simp only [Arena.obey, shape, if_neg other, on]
  | case7 noCreate noMove noHalt =>
      unfold Arena.obey
      split
      · next shape => exact (noCreate _ _ _ shape).elim
      · next shape => exact (noMove _ _ _ _ shape).elim
      · next shape => exact (noHalt _ shape).elim
      · rfl

theorem execute_eq (command : Command) (arena : Arena) :
    arena.execute command = (ofCommand command).on arena := by
  obtain ⟨header, body⟩ := command
  cases body with
  | game message => exact obey_eq header.player message arena
  | destroyPlayer index =>
      simp only [Arena.execute, ofCommand]
      split <;> rfl
  | _ => rfl

end Deed

namespace Arena

variable {arena earlier later : Arena}

/-! ## What stands under an id -/

theorem mem_walkers_iff {id : UInt32} :
    id ∈ arena.walkers ↔ ∃ walker, arena.walker? id = some walker := by
  rw [Std.ExtTreeMap.mem_iff_isSome_getElem?, Option.isSome_iff_exists]
  rfl

theorem walker?_create (owner : UInt8) (position : Point) (arena : Arena) (id : UInt32) :
    (arena.create owner position).walker? id =
      if arena.nextId.toNat + 1 < UInt32.size ∧ arena.nextId = id then some { owner, position }
      else arena.walker? id := by
  unfold create
  split
  · next room =>
      simp only [walker?, Std.ExtTreeMap.getElem?_insert, Std.LawfulEqCmp.compare_eq_iff_eq, room,
        true_and]
  · next full => rw [if_neg (fun both => full both.1)]

theorem walker?_removePlayer (player : UInt8) (arena : Arena) (id : UInt32) :
    (arena.removePlayer player).walker? id =
      (arena.walker? id).filter fun walker => walker.owner != player :=
  Std.ExtTreeMap.getElem?_filter'

theorem walker?_order (player : UInt8) (ordered : UInt32) (target : Option Point) (arena : Arena)
    (id : UInt32) :
    (arena.order player ordered target).walker? id =
      (arena.walker? id).map fun walker =>
        if ordered = id ∧ walker.owner = player then { walker with target } else walker := by
  simp only [walker?, order, Std.ExtTreeMap.getElem?_modify, Std.LawfulEqCmp.compare_eq_iff_eq]
  split
  · next same => simp only [same, true_and]
  · next other => simp only [other, false_and, if_false, Option.map_id']

theorem walker?_advance (arena : Arena) (id : UInt32) :
    arena.advance.walker? id = (arena.executePending.walker? id).map Walker.step :=
  Std.ExtTreeMap.getElem?_map

theorem owner_step (walker : Walker) : walker.step.owner = walker.owner := by
  unfold Walker.step
  split <;> rfl

/-- All ids in use have been given out. -/
def Issued (arena : Arena) : Prop :=
  ∀ id ∈ arena.walkers, id < arena.nextId

/-! ## From one arena to a later one -/

/-- A later arena has gone on from an earlier one: ids were only given out, and every walker
stood there before and belonged to the same player, or bears an id that was given out in
between. -/
structure Follows (earlier later : Arena) : Prop where
  nextId : earlier.nextId ≤ later.nextId
  known : ∀ id walker, later.walker? id = some walker →
    (∃ before, earlier.walker? id = some before ∧ before.owner = walker.owner) ∨
      earlier.nextId ≤ id ∧ id < later.nextId

namespace Follows

theorem of_walkers (same : later.nextId = earlier.nextId)
    (kept : ∀ id walker, later.walker? id = some walker →
      ∃ before, earlier.walker? id = some before ∧ before.owner = walker.owner) :
    earlier.Follows later :=
  ⟨same ▸ UInt32.le_refl _, fun id walker found => .inl (kept id walker found)⟩

theorem refl (arena : Arena) : arena.Follows arena :=
  of_walkers rfl fun _ walker found => ⟨walker, found, rfl⟩

theorem trans {middle : Arena} (first : earlier.Follows middle) (second : middle.Follows later) :
    earlier.Follows later := by
  refine ⟨UInt32.le_trans first.nextId second.nextId, fun id walker found => ?_⟩
  rcases second.known id walker found with ⟨between, stood, owner⟩ | ⟨above, below⟩
  · rcases first.known id between stood with ⟨before, known, same⟩ | ⟨above, below⟩
    · exact .inl ⟨before, known, same.trans owner⟩
    · exact .inr ⟨above, UInt32.lt_of_lt_of_le below second.nextId⟩
  · exact .inr ⟨UInt32.le_trans first.nextId above, below⟩

instance : Trans Follows Follows Follows := ⟨trans⟩

/-- What has been given out in an arena has been given out in those that follow it. -/
theorem issued (follows : earlier.Follows later) (issued : earlier.Issued) : later.Issued := by
  intro id member
  obtain ⟨walker, found⟩ := mem_walkers_iff.mp member
  rcases follows.known id walker found with ⟨before, stood, -⟩ | ⟨-, below⟩
  · exact UInt32.lt_of_lt_of_le (issued id (mem_walkers_iff.mpr ⟨before, stood⟩)) follows.nextId
  · exact below

theorem create (owner : UInt8) (position : Point) (arena : Arena) :
    arena.Follows (arena.create owner position) := by
  have later : arena.nextId.toNat + 1 < UInt32.size →
      arena.nextId < (arena.create owner position).nextId := by
    intro room
    rw [Arena.create, if_pos room, UInt32.lt_iff_toNat_lt, UInt32.toNat_add]
    change arena.nextId.toNat < (arena.nextId.toNat + 1) % UInt32.size
    rw [Nat.mod_eq_of_lt room]
    exact Nat.lt_succ_self _
  constructor
  · by_cases room : arena.nextId.toNat + 1 < UInt32.size
    · exact UInt32.le_of_lt (later room)
    · rw [Arena.create, if_neg room]
      exact UInt32.le_refl _
  · intro id walker found
    rw [walker?_create] at found
    split at found
    · next given =>
        obtain ⟨room, rfl⟩ := given
        exact .inr ⟨UInt32.le_refl _, later room⟩
    · exact .inl ⟨walker, found, rfl⟩

theorem removePlayer (player : UInt8) (arena : Arena) :
    arena.Follows (arena.removePlayer player) := by
  refine of_walkers rfl ?_
  intro id walker found
  rw [walker?_removePlayer] at found
  exact ⟨walker, (Option.filter_eq_some_iff.mp found).1, rfl⟩

theorem order (player : UInt8) (id : UInt32) (target : Option Point) (arena : Arena) :
    arena.Follows (arena.order player id target) := by
  refine of_walkers rfl ?_
  intro ordered walker found
  rw [walker?_order] at found
  obtain ⟨before, stood, rfl⟩ := Option.map_eq_some_iff.mp found
  refine ⟨before, stood, ?_⟩
  split <;> rfl

theorem deed (deed : Deed) (arena : Arena) : arena.Follows (deed.on arena) := by
  cases deed with
  | create owner position => exact create owner position arena
  | remove player => exact removePlayer player arena
  | order player id target => exact order player id target arena
  | nothing => exact refl arena

theorem execute (command : Command) (arena : Arena) : arena.Follows (arena.execute command) := by
  rw [Deed.execute_eq]
  exact deed _ arena

theorem walk (arena : Arena) : arena.executePending.Follows arena.advance := by
  refine of_walkers rfl ?_
  intro id walker found
  rw [walker?_advance] at found
  obtain ⟨before, stood, rfl⟩ := Option.map_eq_some_iff.mp found
  exact ⟨before, stood, (owner_step before).symm⟩

end Follows

end Arena

end MatchTape.World
