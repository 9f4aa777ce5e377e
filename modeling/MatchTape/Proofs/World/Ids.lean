import Mathlib.Data.List.Chain
import MatchTape.Proofs.Attempts
import MatchTape.Proofs.World.Restoring
import MatchTape.Proofs.World.Walkers

/-!
# Ids are given out once

Whatever is asked of an arena, all ids in use lie below the next one, also in the middle of a
frame and behind a state that was loaded from arbitrary bytes.  As long as neither a match is
begun nor a state is loaded, each arena on the way follows those before it; so an id that is
given out has never been in use.
-/

namespace MatchTape.World.Arena

open Packet

inductive Call where
  | begin (setup : Setup)
  | apply (command : Command)
  | advance
  | load (state : List UInt8)

def Call.goesOn : Call → Bool
  | begin _ | load _ => false
  | apply _ | advance => true

def perform : Call → EStateM Refusal Arena Unit
  | .begin setup => fun _ => .ok () (.begin setup)
  | .apply command => fun arena => .ok () (arena.apply command)
  | .advance => fun arena => .ok () arena.advance
  | .load state => fun arena =>
      match arena.load state with
      | .ok after => .ok () after
      | .error refusal => .error refusal arena

/-- The arenas that a call passes through: one in front of each walker that a match begins
with and behind the last, or in front of each command of a frame and behind the last. -/
def between : Call → Arena → List Arena
  | .begin setup, _ =>
      setup.roster.scanl
        (fun arena place => arena.create place.slot ⟨.ofNat (place.slot.toNat * 100), .zero⟩)
        { setup := some setup, random := setup.seed, nextId := 1 }
  | .advance, arena => arena.pending.toList.scanl execute { arena with pending := #[] }
  | .apply _, _ | .load _, _ => []

/-- All arenas that calls pass through, from the one that they are made on to the one that
they leave. -/
def moments : List Call → Arena → List Arena
  | [], arena => [arena]
  | call :: calls, arena =>
      arena :: (between call arena ++ moments calls (Attempts.left (perform call) arena))

def lastId : UInt32 := 4294967295

variable {arena earlier later : Arena}

/-! ## Ids in use -/

theorem issued_of_empty (empty : arena.walkers = ∅) : arena.Issued := by
  intro id member
  rw [empty] at member
  exact absurd member Std.ExtTreeMap.not_mem_empty

/-- Creating a walker does not replace one that is there. -/
theorem walker?_create_of_issued (issued : arena.Issued) (owner : UInt8) (position : Point)
    {id : UInt32} {walker : Walker} (found : arena.walker? id = some walker) :
    (arena.create owner position).walker? id = some walker := by
  rw [walker?_create, if_neg, found]
  rintro ⟨-, rfl⟩
  exact UInt32.lt_irrefl _ (issued _ (mem_walkers_iff.mpr ⟨walker, found⟩))

theorem create_eq_self (full : arena.nextId = lastId) (owner : UInt8) (position : Point) :
    arena.create owner position = arena := by
  rw [create, full, if_neg (by decide)]

theorem issued_of_load {state : List UInt8} (loaded : arena.load state = .ok later) :
    later.Issued := by
  obtain ⟨_, -, accepted⟩ := load_eq_ok_iff.mp loaded
  exact (at_of_ofState accepted).issued

namespace Follows

/-- If each of some arenas follows the one before, what was issued in the first is in all. -/
theorem forall_issued {arenas : List Arena} (chain : arenas.IsChain Follows)
    (start : ∀ first ∈ arenas.head?, first.Issued) : ∀ moment ∈ arenas, moment.Issued := by
  cases arenas with
  | nil => exact fun _ => nofun
  | cons first others =>
      have issued : first.Issued := start first rfl
      obtain ⟨behind, -⟩ := List.pairwise_cons.mp (List.isChain_iff_pairwise.mp chain)
      exact List.forall_mem_cons.mpr
        ⟨issued, fun moment member => (behind moment member).issued issued⟩

theorem isChain_scanl {α : Type} {step : Arena → α → Arena}
    (steps : ∀ (arena : Arena) (item : α), arena.Follows (step arena item)) (items : List α)
    (first : Arena) : (items.scanl step first).IsChain Follows := by
  induction items generalizing first with
  | nil => exact List.scanl_nil ▸ List.isChain_singleton first
  | cons item items ih =>
      rw [List.scanl_cons, List.isChain_cons, List.head?_scanl]
      refine ⟨fun next member => ?_, ih _⟩
      cases member
      exact steps first item

theorem clear (arena : Arena) : arena.Follows { arena with pending := #[] } :=
  of_walkers rfl fun _ walker found => ⟨walker, found, rfl⟩

theorem apply (command : Command) (arena : Arena) : arena.Follows (arena.apply command) :=
  of_walkers rfl fun _ walker found => ⟨walker, found, rfl⟩

end Follows

/-! ## Calls -/

theorem isChain_between (call : Call) (arena : Arena) : (between call arena).IsChain Follows := by
  cases call with
  | begin setup => exact Follows.isChain_scanl (fun arena place => .create _ _ arena) _ _
  | advance => exact Follows.isChain_scanl (fun arena command => .execute command arena) _ _
  | apply | load => exact List.isChain_nil

theorem issued_between (issued : arena.Issued) (call : Call) :
    ∀ moment ∈ between call arena, moment.Issued := by
  apply Follows.forall_issued (isChain_between call arena)
  intro first member
  cases call with
  | begin setup =>
      rw [between, List.head?_scanl] at member
      cases member
      exact issued_of_empty rfl
  | advance =>
      rw [between, List.head?_scanl] at member
      cases member
      exact issued
  | apply | load => cases member

theorem getLast?_between_advance (arena : Arena) :
    (between .advance arena).getLast? = some arena.executePending := by
  rw [between, List.getLast?_scanl, executePending]

theorem issued_left (issued : arena.Issued) (call : Call) :
    (Attempts.left (perform call) arena).Issued := by
  cases call with
  | begin setup => exact (at_begin setup).issued
  | apply command => exact issued
  | advance =>
      have executed : arena.executePending.Issued :=
        issued_between issued .advance _ (List.mem_of_getLast? (getLast?_between_advance arena))
      exact (Follows.walk arena).issued executed
  | load state =>
      cases loaded : arena.load state with
      | ok after =>
          have performed : perform (.load state) arena = .ok () after := by
            simp only [perform, loaded]
          rw [Attempts.left_of_ok performed]
          exact issued_of_load loaded
      | error refusal =>
          have performed : perform (.load state) arena = .error refusal arena := by
            simp only [perform, loaded]
          rw [Attempts.left_of_error performed]
          exact issued

/-- Whatever was asked of a new arena, all ids in use have been given out. -/
theorem issued_final (calls : List Call) : (Attempts.final perform calls .empty).Issued :=
  Attempts.final_induction (motive := Issued) (fun call _ issued => issued_left issued call) calls
    (issued_of_empty rfl)

theorem issued_moments (issued : arena.Issued) (calls : List Call) :
    ∀ moment ∈ moments calls arena, moment.Issued := by
  induction calls generalizing arena with
  | nil => exact List.forall_mem_singleton.mpr issued
  | cons call calls ih =>
      rw [moments, List.forall_mem_cons, List.forall_mem_append]
      exact ⟨issued, issued_between issued call, ih (issued_left issued call)⟩

theorem head?_moments (calls : List Call) (arena : Arena) :
    (moments calls arena).head? = some arena := by
  cases calls <;> rfl

/-- As long as calls go on, every moment follows the one before it. -/
theorem isChain_moments {calls : List Call} (going : ∀ call ∈ calls, call.goesOn = true)
    (arena : Arena) : (moments calls arena).IsChain Follows := by
  induction calls generalizing arena with
  | nil => exact List.isChain_singleton arena
  | cons call calls ih =>
      obtain ⟨first, others⟩ := List.forall_mem_cons.mp going
      have later := ih others (Attempts.left (perform call) arena)
      rw [moments, List.isChain_cons, List.isChain_append, head?_moments]
      cases call with
      | begin | load => cases first
      | apply command =>
          refine ⟨fun next member => ?_, List.isChain_nil, later, fun last => nofun⟩
          rw [between, List.nil_append, head?_moments] at member
          cases member
          exact .apply command arena
      | advance =>
          refine ⟨fun next member => ?_, isChain_between .advance arena, later, ?_⟩
          · rw [List.head?_append, between, List.head?_scanl] at member
            cases member
            exact .clear arena
          · rw [getLast?_between_advance]
            rintro _ ⟨⟩ _ ⟨⟩
            exact .walk arena

/-- On a new arena, whatever is asked of it, all ids in use lie below the next one at every
moment, so that creating a walker replaces none.  While calls go on, the next id never goes
down, a walker that appears bears an id that none has borne before, and once the last id of all
is next nothing is created. -/
theorem ids_given_once (calls stretch : List Call)
    (going : ∀ call ∈ stretch, call.goesOn = true) :
    let course := moments stretch (Attempts.final perform calls .empty)
    (∀ arena ∈ moments calls .empty,
      (∀ id ∈ arena.walkers, id < arena.nextId) ∧
        ∀ owner position id walker, arena.walker? id = some walker →
          (arena.create owner position).walker? id = some walker) ∧
      course.Pairwise (fun earlier later => earlier.nextId ≤ later.nextId) ∧
      (∀ front before after behind, course = front ++ before :: after :: behind →
        ∀ id walker, after.walker? id = some walker →
          (∃ stood, before.walker? id = some stood ∧ stood.owner = walker.owner) ∨
            ∀ earlier ∈ front ++ [before], id ∉ earlier.walkers) ∧
      ∀ arena ∈ course, arena.nextId = lastId →
        ∀ owner position, arena.create owner position = arena := by
  intro course
  have new : empty.Issued := issued_of_empty rfl
  have follows : course.Pairwise Follows :=
    List.isChain_iff_pairwise.mp (isChain_moments going _)
  refine ⟨fun arena member => ?_, follows.imp Follows.nextId, ?_, fun arena _ => create_eq_self⟩
  · have issued := issued_moments new calls arena member
    exact ⟨issued, fun owner position id walker => walker?_create_of_issued issued owner position⟩
  · intro front before after behind split id walker found
    rw [split, List.pairwise_append, List.pairwise_cons] at follows
    obtain ⟨-, ⟨later, -⟩, past⟩ := follows
    have next : before.Follows after := later after List.mem_cons_self
    refine (next.known id walker found).imp_right fun ⟨fresh, _⟩ => ?_
    have unused : ∀ earlier ∈ course, earlier.nextId ≤ before.nextId → id ∉ earlier.walkers := by
      intro earlier member upTo used
      have below : id < earlier.nextId :=
        issued_moments (issued_final calls) stretch earlier member id used
      exact UInt32.not_lt.mpr fresh (UInt32.lt_of_lt_of_le below upTo)
    rw [split] at unused
    intro earlier member
    rcases List.mem_append.mp member with first | last
    · exact unused earlier (List.mem_append_left _ first)
        (past earlier first before List.mem_cons_self).nextId
    · rw [List.mem_singleton.mp last]
      exact unused before (List.mem_append_right _ List.mem_cons_self) (UInt32.le_refl _)

def leavingCalls : List Call :=
  let creates : Command := ⟨{ player := 1 }, .game ⟨createCode, [.location ⟨0⟩ ⟨0⟩ ⟨0⟩]⟩⟩
  [.apply creates, .apply ⟨{}, .playerLeave 1⟩, .apply creates, .advance]

/-- The id of the walker that was taken away is not given to the one behind it. -/
theorem ids_given_once_leaving :
    let course := moments leavingCalls (Attempts.final perform [.begin {}] .empty)
    (∀ call ∈ leavingCalls, call.goesOn = true) ∧
      course.Pairwise (fun earlier later => earlier.nextId ≤ later.nextId) ∧
      course.map (fun arena => arena.walkers.keys) = [[], [], [], [], [], [1], [], [2], [2]] := by
  have going : ∀ call ∈ leavingCalls, call.goesOn = true := by decide
  obtain ⟨-, ascends, -, -⟩ := ids_given_once [.begin {}] leavingCalls going
  refine ⟨going, ascends, ?_⟩
  decide +kernel

end MatchTape.World.Arena
