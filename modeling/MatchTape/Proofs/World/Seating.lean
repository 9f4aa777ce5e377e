import MatchTape.Proofs.World.Arena
import MatchTape.Tape.Recording
import MatchTape.World.SavedState

/-!
# Seats in another order

The places of a setup stand in the order of their slots, whatever the order of the seats on the
sheet.  Places that share a slot keep the order of their seats, so two setups need not be the
same; but their slots are, one by one, and so are the slots of all places with the host's name.
That is all that the first frame of a match and its recording are made from.
-/

namespace MatchTape

open Record

/-! ## Sheets -/

namespace Record.MatchSheet

/-- The other sheet has the same seats in some other order, and agrees in everything else. -/
structure Reseated (sheet other : MatchSheet) : Prop where
  perm : other.roster.Perm sheet.roster
  rest : other = { sheet with roster := other.roster }

variable {sheet other : MatchSheet}

theorem Reseated.of_perm {roster : List Seat} (perm : roster.Perm sheet.roster) :
    sheet.Reseated { sheet with roster } :=
  ⟨perm, rfl⟩

theorem Reseated.map (reseated : sheet.Reseated other) : other.map = sheet.map := by
  rw [reseated.rest]

theorem Reseated.host (reseated : sheet.Reseated other) : other.host = sheet.host := by
  rw [reseated.rest]

theorem Reseated.seed (reseated : sheet.Reseated other) : other.seed = sheet.seed := by
  rw [reseated.rest]

theorem Reseated.frameCount (reseated : sheet.Reseated other) :
    other.frameCount = sheet.frameCount := by
  rw [reseated.rest]

theorem Reseated.symm (reseated : sheet.Reseated other) : other.Reseated sheet := by
  refine ⟨reseated.perm.symm, ?_⟩
  rw [reseated.rest]

theorem Reseated.length_bytes (reseated : sheet.Reseated other) :
    other.bytes.length = sheet.bytes.length := by
  have seats := reseated.perm.map fun seat : Seat => (⟨seatNumber, .block seat.bytes⟩ : Entry)
  have entries : other.entries.Perm sheet.entries := by
    rw [reseated.rest]
    exact (seats.append_left _).append_right _
  exact (entries.flatMap_right Entry.bytes).length_eq

end Record.MatchSheet

namespace World

/-! ## Places in the order of their slots -/

namespace Place

def taken (seat : Seat) : Place :=
  ⟨seat.slot.toUInt8, seat.player, seat.team⟩

/-- The order in which the places of a setup stand. -/
def before (left right : Place) : Bool :=
  left.slot ≤ right.slot

theorem ofSeat_eq_ok_iff {seat : Seat} {place : Place} :
    ofSeat seat = .ok place ↔ seat.slot < 256 ∧ place = taken seat := by
  unfold ofSeat
  split
  · next small =>
      rw [Except.ok.injEq]
      exact ⟨fun same => ⟨small, same.symm⟩, fun found => found.2.symm⟩
  · next large => exact ⟨nofun, fun found => absurd found.1 large⟩

theorem mapM_ofSeat_eq_ok_iff {roster : List Seat} {places : List Place} :
    roster.mapM ofSeat = .ok places ↔
      (∀ seat ∈ roster, seat.slot < 256) ∧ places = roster.map taken := by
  induction roster generalizing places with
  | nil => exact ⟨fun same => ⟨nofun, (Except.ok.inj same).symm⟩, fun found => found.2 ▸ rfl⟩
  | cons seat roster ih =>
      rw [List.mapM_cons, List.forall_mem_cons, List.map_cons]
      constructor
      · intro found
        cases first : ofSeat seat with
        | error refusal =>
            rw [first] at found
            cases found
        | ok place =>
            cases others : roster.mapM ofSeat with
            | error refusal =>
                rw [first, others] at found
                cases found
            | ok rest =>
                rw [first, others] at found
                obtain ⟨small, rfl⟩ := ofSeat_eq_ok_iff.mp first
                obtain ⟨smaller, rfl⟩ := ih.mp others
                cases found
                exact ⟨⟨small, smaller⟩, rfl⟩
      · rintro ⟨⟨small, smaller⟩, rfl⟩
        rw [ofSeat_eq_ok_iff.mpr ⟨small, rfl⟩, ih.mpr ⟨smaller, rfl⟩]
        rfl

theorem pairwise_mergeSort (places : List Place) :
    (places.mergeSort before).Pairwise fun left right => left.slot ≤ right.slot := by
  refine (List.pairwise_mergeSort ?_ ?_ places).imp fun sorted => of_decide_eq_true sorted
  · intro a b c ab bc
    exact decide_eq_true (UInt8.le_trans (of_decide_eq_true ab) (of_decide_eq_true bc))
  · intro a b
    rw [Bool.or_eq_true]
    exact (UInt8.le_total a.slot b.slot).imp decide_eq_true decide_eq_true

theorem map_slot_eq {places others : List Place} (perm : others.Perm places)
    (sorted : places.Pairwise fun left right => left.slot ≤ right.slot)
    (sortedOthers : others.Pairwise fun left right => left.slot ≤ right.slot) :
    others.map slot = places.map slot :=
  List.Perm.eq_of_pairwise (fun _ _ _ _ => UInt8.le_antisymm) (List.pairwise_map.mpr sortedOthers)
    (List.pairwise_map.mpr sorted) (perm.map slot)

end Place

/-! ## Setups -/

namespace Setup

/-- The other setup has the same places, perhaps with those that share a slot in another order,
and agrees in everything else. -/
structure Reseated (setup other : Setup) : Prop where
  perm : other.roster.Perm setup.roster
  sorted : setup.roster.Pairwise fun left right => left.slot ≤ right.slot
  sortedOther : other.roster.Pairwise fun left right => left.slot ≤ right.slot
  rest : other = { setup with roster := other.roster }

theorem ofSheet_eq_ok_iff {sheet : MatchSheet} {setup : Setup} :
    ofSheet sheet = .ok setup ↔ (∀ seat ∈ sheet.roster, seat.slot < 256) ∧
      setup = ⟨sheet.host, sheet.map, sheet.seed,
        (sheet.roster.map Place.taken).mergeSort Place.before⟩ := by
  unfold ofSheet
  cases found : sheet.roster.mapM Place.ofSeat with
  | error refusal =>
      refine ⟨nofun, fun valid => ?_⟩
      rw [Place.mapM_ofSeat_eq_ok_iff.mpr ⟨valid.1, rfl⟩] at found
      cases found
  | ok places =>
      obtain ⟨small, rfl⟩ := Place.mapM_ofSeat_eq_ok_iff.mp found
      constructor
      · rintro ⟨⟩
        exact ⟨small, rfl⟩
      · rintro ⟨-, rfl⟩
        rfl

variable {sheet otherSheet : MatchSheet} {setup other : Setup}

theorem exists_of_reseated (reseated : sheet.Reseated otherSheet)
    (valid : ofSheet sheet = .ok setup) :
    ∃ other, ofSheet otherSheet = .ok other ∧ setup.Reseated other := by
  obtain ⟨small, rfl⟩ := ofSheet_eq_ok_iff.mp valid
  refine ⟨_, ofSheet_eq_ok_iff.mpr ⟨?_, rfl⟩, ?_, Place.pairwise_mergeSort _,
    Place.pairwise_mergeSort _, ?_⟩
  · exact fun seat member => small seat (reseated.perm.mem_iff.mp member)
  · have places := reseated.perm.map Place.taken
    exact (List.mergeSort_perm _ _).trans (places.trans (List.mergeSort_perm _ _).symm)
  · rw [reseated.host, reseated.map, reseated.seed]

namespace Reseated

theorem map (reseated : setup.Reseated other) : other.map = setup.map := by
  rw [reseated.rest]

theorem slots (reseated : setup.Reseated other) :
    other.roster.map Place.slot = setup.roster.map Place.slot :=
  Place.map_slot_eq reseated.perm reseated.sorted reseated.sortedOther

/-- The places with the host's name stand in the order of their slots too, so the first of them
has the same slot. -/
theorem hostSlot (reseated : setup.Reseated other) : other.hostSlot = setup.hostSlot := by
  have first (setup : Setup) : setup.hostSlot =
      (((setup.roster.filter (·.player == setup.host)).map Place.slot).head?).getD 0 := by
    rw [Setup.hostSlot, List.head?_map, List.head?_filter]
    cases setup.roster.find? (·.player == setup.host) <;> rfl
  have host : other.host = setup.host := by rw [reseated.rest]
  rw [first, first, host, Place.map_slot_eq (reseated.perm.filter _) (reseated.sorted.filter _)
    (reseated.sortedOther.filter _)]

end Reseated

end Setup

/-! ## Arenas that differ in their setup alone -/

namespace Arena

def under (setup : Option Setup) (arena : Arena) : Arena :=
  { arena with setup }

variable (setup : Option Setup)

theorem create_under (owner : UInt8) (position : Point) (arena : Arena) :
    (arena.under setup).create owner position = (arena.create owner position).under setup := by
  unfold create under
  split <;> rfl

theorem on_under (deed : Deed) (arena : Arena) :
    deed.on (arena.under setup) = (deed.on arena).under setup := by
  cases deed with
  | create owner position => exact create_under setup owner position arena
  | remove | order | nothing => rfl

theorem execute_under (command : Packet.Command) (arena : Arena) :
    (arena.under setup).execute command = (arena.execute command).under setup := by
  rw [Deed.execute_eq, Deed.execute_eq, on_under]

theorem foldl_execute_under (commands : List Packet.Command) (arena : Arena) :
    commands.foldl execute (arena.under setup) = (commands.foldl execute arena).under setup := by
  induction commands generalizing arena with
  | nil => rfl
  | cons command commands ih => rw [List.foldl_cons, List.foldl_cons, execute_under, ih]

theorem advance_under (arena : Arena) :
    (arena.under setup).advance = arena.advance.under setup := by
  have executed : (arena.under setup).executePending = arena.executePending.under setup :=
    foldl_execute_under setup arena.pending.toList { arena with pending := #[] }
  rw [advance, executed]
  rfl

/-- Commands are carried out and walkers walk without a look at the setup. -/
theorem playFrame_under (commands : List Packet.Command) (arena : Arena) :
    (arena.under setup).playFrame commands = (arena.playFrame commands).under setup := by
  rw [playFrame, playFrame, foldl_apply, foldl_apply, ← advance_under]
  rfl

theorem setup_playFrame (commands : List Packet.Command) (arena : Arena) :
    (arena.playFrame commands).setup = arena.setup := by
  have same := congrArg Arena.setup (playFrame_under arena.setup commands arena)
  exact same

theorem checksum_under (arena : Arena) : (arena.under setup).checksum = arena.checksum :=
  rfl

/-- A state is saved with no more of the setup than the name of the map. -/
theorem save_under {setup : Option Setup} {arena : Arena}
    (map : setup.map Setup.map = arena.setup.map Setup.map) :
    (arena.under setup).save = arena.save := by
  unfold save
  rw [show (arena.under setup).setup = setup from rfl, map]
  rfl

def seat (arena : Arena) (slot : UInt8) : Arena :=
  arena.create slot ⟨.ofNat (slot.toNat * 100), .zero⟩

theorem begin_eq (setup : Setup) :
    begin setup = (setup.roster.map Place.slot).foldl seat
      { setup := some setup, random := setup.seed, nextId := 1 } :=
  (List.foldl_map (f := Place.slot) (g := seat)).symm

theorem foldl_seat_under (slots : List UInt8) (arena : Arena) :
    slots.foldl seat (arena.under setup) = (slots.foldl seat arena).under setup := by
  induction slots generalizing arena with
  | nil => rfl
  | cons slot slots ih =>
      rw [List.foldl_cons, List.foldl_cons, ← ih]
      exact congrArg (slots.foldl seat) (create_under setup slot _ arena)

/-- A match begins with one walker for each slot, so it begins alike from places that have the
same slots. -/
theorem begin_reseated {setup other : Setup} (reseated : setup.Reseated other) :
    begin other = (begin setup).under (some other) := by
  have seed : other.seed = setup.seed := by rw [reseated.rest]
  rw [begin_eq, begin_eq, reseated.slots, seed, ← foldl_seat_under]
  rfl

end Arena

end World

/-! ## Recordings -/

namespace Tape.Recording

open World

/-- A recording begins with the same state, and in the name of the same player. -/
theorem begin_reseated {sheet other : MatchSheet} {setup setup' : Setup}
    (valid : Setup.ofSheet sheet = .ok setup) (validOther : Setup.ofSheet other = .ok setup')
    (reseated : setup.Reseated setup') (interval : UInt32) :
    ∃ recording recording', begin sheet interval = .ok recording ∧
      begin other interval = .ok recording' ∧
      recording'.arena = recording.arena.under (some setup') ∧
      recording'.host = recording.host := by
  rw [begin, valid, begin, validOther]
  exact ⟨_, _, rfl, rfl, Arena.begin_reseated reseated, reseated.hostSlot⟩

end Tape.Recording

end MatchTape
