import MatchTape.Proofs.World.Ids

/-!
# Walkers of other players

What commands do to a walker whose id has been given out depends on that walker alone, not on
what else the arena holds.  The messages of a player do nothing to the walkers of others, so
these end a frame the same whether the messages are there or not.
-/

namespace MatchTape.World

open Packet

namespace Deed

/-- What a deed leaves under an id that has been given out. -/
def under (id : UInt32) : Deed → Option Walker → Option Walker
  | create _ _, found => found
  | remove player, found => found.filter fun walker => walker.owner != player
  | order player ordered target, found =>
      found.map fun walker =>
        if ordered = id ∧ walker.owner = player then { walker with target } else walker
  | nothing, found => found

variable {id : UInt32} {player : UInt8} {found : Option Walker} {arena : Arena}

theorem walker?_on (issued : id < arena.nextId) (deed : Deed) :
    (deed.on arena).walker? id = deed.under id (arena.walker? id) := by
  cases deed with
  | create owner position =>
      rw [on, Arena.walker?_create, if_neg, under]
      rintro ⟨-, rfl⟩
      exact UInt32.lt_irrefl _ issued
  | remove player => exact Arena.walker?_removePlayer player arena id
  | order player ordered target => exact Arena.walker?_order player ordered target arena id
  | nothing => rfl

/-- The walker belongs to another player, if there is one. -/
def Foreign (player : UInt8) (found : Option Walker) : Prop :=
  ∀ walker ∈ found, walker.owner ≠ player

theorem Foreign.under (foreign : Foreign player found) (deed : Deed) (id : UInt32) :
    Foreign player (deed.under id found) := by
  cases deed with
  | create | nothing => exact foreign
  | remove leaving =>
      intro walker member
      exact foreign walker (Option.filter_eq_some_iff.mp member).1
  | order owner ordered target =>
      intro walker member
      obtain ⟨before, stood, rfl⟩ := Option.map_eq_some_iff.mp member
      split
      · exact foreign before stood
      · exact foreign before stood

/-- A deed of a player leaves the walkers of others as they are. -/
theorem under_eq_self {deed : Deed} (own : deed.By player) (foreign : Foreign player found)
    (id : UInt32) : deed.under id found = found := by
  cases deed with
  | create | nothing => rfl
  | remove => exact own.elim
  | order owner ordered target =>
      cases own
      cases found with
      | none => rfl
      | some walker =>
          have other : walker.owner ≠ player := foreign walker rfl
          rw [under, Option.map_some, if_neg fun both => other both.2]

end Deed

def isMessageOf (player : UInt8) (command : Command) : Bool :=
  match command.body with
  | .game _ => command.header.player == player
  | _ => false

theorem Deed.by_ofCommand {player : UInt8} {command : Command}
    (own : isMessageOf player command = true) : (Deed.ofCommand command).By player := by
  obtain ⟨header, body⟩ := command
  cases body with
  | game message =>
      obtain rfl : header.player = player := eq_of_beq own
      exact Deed.by_ofMessage header.player message
  | _ => cases own

namespace Arena

open Deed

variable {id : UInt32} {player : UInt8} {arena : Arena}

theorem walker?_foldl_execute (issued : id < arena.nextId) (commands : List Command) :
    (commands.foldl execute arena).walker? id =
      commands.foldl (fun found command => (ofCommand command).under id found)
        (arena.walker? id) := by
  induction commands generalizing arena with
  | nil => rfl
  | cons command commands ih =>
      have later : id < (arena.execute command).nextId :=
        UInt32.lt_of_lt_of_le issued (Follows.execute command arena).nextId
      rw [List.foldl_cons, ih later, execute_eq, walker?_on issued, List.foldl_cons]

/-- The messages of a player change nothing for the walkers of others. -/
theorem foldl_under_filter {found : Option Walker} (foreign : Foreign player found)
    (commands : List Command) :
    (commands.filter fun command => !isMessageOf player command).foldl
        (fun found command => (ofCommand command).under id found) found =
      commands.foldl (fun found command => (ofCommand command).under id found) found := by
  induction commands generalizing found with
  | nil => rfl
  | cons command commands ih =>
      cases own : isMessageOf player command with
      | true =>
          have idle : (ofCommand command).under id found = found :=
            under_eq_self (by_ofCommand own) foreign id
          rw [List.filter_cons_of_neg (by simp [own]), ih foreign, List.foldl_cons, idle]
      | false =>
          rw [List.filter_cons_of_pos (by simp [own]), List.foldl_cons, List.foldl_cons]
          exact ih (foreign.under _ id)

/-- Play a frame in which just the given commands are carried out. -/
def advanceWith (commands : List Command) (arena : Arena) : Arena :=
  { arena with pending := commands.toArray }.advance

theorem walker?_advanceWith (issued : id < arena.nextId) (commands : List Command) :
    (arena.advanceWith commands).walker? id =
      (commands.foldl (fun found command => (ofCommand command).under id found)
        (arena.walker? id)).map Walker.step := by
  have cleared : id < { arena with pending := #[] }.nextId := issued
  rw [advanceWith, walker?_advance, executePending]
  exact congrArg (Option.map Walker.step) (walker?_foldl_execute cleared commands)

/-- Whatever an arena has come to, and whatever is done in a frame, the messages of a player make
no difference to the walkers of others that were there: each of them is still there with the
messages if and only if it is without them, and then with the same owner, position and target. -/
theorem advance_without_messages (calls : List Call) (player : UInt8) (commands : List Command) :
    let arena := Attempts.final perform calls .empty
    let others := commands.filter fun command => !isMessageOf player command
    ∀ id walker, arena.walker? id = some walker → walker.owner ≠ player →
      (arena.advanceWith commands).walker? id = (arena.advanceWith others).walker? id := by
  intro arena others id walker found other
  have issued : id < arena.nextId :=
    issued_final calls id (mem_walkers_iff.mpr ⟨walker, found⟩)
  have foreign : Foreign player (arena.walker? id) := by
    rw [found]
    rintro _ ⟨⟩
    exact other
  rw [walker?_advanceWith issued, walker?_advanceWith issued, foldl_under_filter foreign]

def sharedFrame : List Command :=
  [⟨{ player := 1 }, .game ⟨createCode, [.location ⟨0⟩ ⟨0⟩ ⟨0⟩]⟩⟩,
   ⟨{ player := 1 }, .game ⟨haltCode, [.objectId 1]⟩⟩,
   ⟨{ player := 2 }, .game ⟨createCode, [.location ⟨0⟩ ⟨0⟩ ⟨0⟩]⟩⟩,
   ⟨{ player := 2 }, .game ⟨moveCode, [.objectId 1, .location ⟨0x3f800000⟩ ⟨0⟩ ⟨0⟩]⟩⟩,
   ⟨{}, .playerLeave 3⟩]

/-- What player 1 sends takes an id in front of the new walker of player 2, but does nothing to
the walker that player 2 had. -/
theorem advance_without_messages_shared :
    let creates : Command := ⟨{ player := 2 }, .game ⟨createCode, [.location ⟨0⟩ ⟨0⟩ ⟨0⟩]⟩⟩
    let arena := Attempts.final perform [.begin {}, .apply creates, .advance] .empty
    let others := sharedFrame.filter fun command => !isMessageOf 1 command
    arena.walker? 1 = some { owner := 2, position := ⟨⟨0⟩, ⟨0⟩⟩ } ∧
      (arena.advanceWith sharedFrame).walker? 1 = (arena.advanceWith others).walker? 1 ∧
      (arena.advanceWith sharedFrame).walkers.keys = [1, 2, 3] ∧
      (arena.advanceWith others).walkers.keys = [1, 2] := by
  intro creates arena others
  have found : arena.walker? 1 = some { owner := 2, position := ⟨⟨0⟩, ⟨0⟩⟩ } := by decide +kernel
  refine ⟨found, ?_, by decide +kernel, by decide +kernel⟩
  exact advance_without_messages [.begin {}, .apply creates, .advance] 1 sharedFrame 1 _ found
    (by decide)

end Arena

end MatchTape.World
