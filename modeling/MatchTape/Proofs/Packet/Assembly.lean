import Mathlib.Data.List.Perm.Subperm
import MatchTape.Proofs.Attempts
import MatchTape.Proofs.Packet.Parts
import MatchTape.Proofs.Packet.RoundTrip

/-!
# What an assembly puts together

An assembly stores fragments that suit each other: they belong to one payload, have numbers
of their own, and share no byte.  When it has stored as many as are counted and they take up
the whole length, their data tiles the payload.  Whatever arrives and in whatever order, a
payload comes out at most once, and every fragment that was accepted is found in it at its
place.
-/

namespace MatchTape.Packet

theorem raised_eq_none {ε : Type} {applies : Prop} [Decidable applies] {cause : ε}
    {others : Option ε} :
    (if applies then some cause else others) = none ↔ ¬ applies ∧ others = none := by
  split
  · next holds => simp [holds]
  · next fails => simp [fails]

/-! ## Fragments that suit each other -/

/-- The later fragment can be stored when the earlier one has been. -/
structure Fragment.Suits (earlier later : Fragment) : Prop where
  set : earlier.set = later.set
  number : earlier.number ≠ later.number
  clear : earlier.data ≠ [] →
    Assembly.Clear later.start later.stop (earlier.start, earlier.data)

theorem Fragment.stop_of_fits {fragment : Fragment} (fits : fragment.data.length < 2 ^ 32) :
    fragment.stop = fragment.start + fragment.data.length := by
  rw [stop, length_of_fits fits]
  rfl

namespace Assembly

variable {assembly : Assembly} {stored : List Fragment} {fragment : Fragment}

theorem objection?_eq_none :
    assembly.objection? fragment = none ↔
      assembly.complete = false ∧ assembly.set.getD fragment.set = fragment.set ∧
      fragment.number < fragment.count ∧
      assembly.arrived.any (·.1 == fragment.number) = false ∧
      fragment.stop ≤ fragment.total.toNat ∧
      assembly.overlaps fragment.start fragment.stop = false := by
  simp only [objection?, raised_eq_none, ne_eq, Decidable.not_not, Bool.not_eq_true, and_true]
  constructor
  · rintro ⟨waits, same, counted, fresh, inside, apart⟩
    rw [same] at counted inside
    exact ⟨waits, same, UInt32.not_le.mp counted, fresh, Nat.le_of_not_lt inside, apart⟩
  · rintro ⟨waits, same, counted, fresh, inside, apart⟩
    rw [same]
    exact ⟨waits, rfl, UInt32.not_le.mpr counted, fresh, Nat.not_lt.mpr inside, apart⟩

/-! ## Numbers -/

structure Numbered (assembly : Assembly) : Prop where
  distinct : (assembly.arrived.map Prod.fst).Nodup
  counted : ∀ number ∈ assembly.arrived.map Prod.fst,
    ∃ set, assembly.set = some set ∧ number < set.count

theorem fresh_iff : assembly.arrived.any (·.1 == fragment.number) = false ↔
    fragment.number ∉ assembly.arrived.map Prod.fst := by
  rw [List.any_eq_false, List.mem_map]
  constructor
  · rintro fresh ⟨entry, member, same⟩
    exact fresh entry member (beq_iff_eq.mpr same)
  · intro fresh entry member same
    exact fresh ⟨entry, member, beq_iff_eq.mp same⟩

namespace Numbered

variable {set : FragmentSet}

theorem perm (numbered : assembly.Numbered) (known : assembly.set = some set)
    (full : set.count.toNat ≤ assembly.received) :
    (assembly.arrived.map (·.1.toNat)).Perm (List.range set.count.toNat) := by
  have distinct : ((assembly.arrived.map Prod.fst).map UInt32.toNat).Nodup :=
    List.pairwise_map.mpr (numbered.distinct.imp fun apart same => apart (UInt32.toNat_inj.mp same))
  have within : (assembly.arrived.map Prod.fst).map UInt32.toNat ⊆
      List.range set.count.toNat := by
    intro place listed
    obtain ⟨number, member, rfl⟩ := List.mem_map.mp listed
    obtain ⟨found, same, below⟩ := numbered.counted number member
    rw [Option.some.inj (known.symm.trans same), List.mem_range]
    exact UInt32.lt_iff_toNat_lt.mp below
  rw [List.map_map] at distinct within
  apply (List.Nodup.subperm distinct within).perm_of_length_le
  rwa [List.length_map, List.length_range]

theorem store (numbered : assembly.Numbered) (free : assembly.objection? fragment = none) :
    (assembly.store fragment).Numbered := by
  obtain ⟨-, same, below, fresh, -⟩ := objection?_eq_none.mp free
  have numbers : (assembly.store fragment).arrived.map Prod.fst =
      assembly.arrived.map Prod.fst ++ [fragment.number] := List.map_append
  constructor
  · rw [numbers]
    refine List.nodup_append.mpr ⟨numbered.distinct, List.pairwise_singleton _ _, ?_⟩
    intro number earlier other last same
    rw [same, List.mem_singleton.mp last] at earlier
    exact fresh_iff.mp fresh earlier
  · rw [numbers]
    intro number member
    refine ⟨fragment.set, rfl, ?_⟩
    rcases List.mem_append.mp member with earlier | last
    · obtain ⟨set, known, counted⟩ := numbered.counted number earlier
      rw [known] at same
      exact same ▸ counted
    · exact List.mem_singleton.mp last ▸ below

end Numbered

/-- The assembly has stored these fragments, in this order, and waits for more. -/
structure Collects (assembly : Assembly) (stored : List Fragment) : Prop where
  waits : assembly.complete = false
  set : assembly.set = stored.head?.map Fragment.set
  arrived : assembly.arrived = stored.map fun fragment => (fragment.number, fragment.data.length)
  parts : assembly.parts.Perm ((stored.filter (!·.data.isEmpty)).map fun fragment =>
    (fragment.start, fragment.data))
  inOrder : InOrder assembly.parts
  inRange : ∀ fragment ∈ stored, fragment.InRange
  suits : stored.Pairwise Fragment.Suits
  fits : ∀ fragment ∈ stored, fragment.data.length < 2 ^ 32

theorem collects_empty : empty.Collects [] where
  waits := rfl
  set := rfl
  arrived := rfl
  parts := List.Perm.refl []
  inOrder := InOrder.nil
  inRange := fun _ member => absurd member List.not_mem_nil
  suits := List.Pairwise.nil
  fits := fun _ member => absurd member List.not_mem_nil

namespace Collects

theorem set_of_mem (collects : assembly.Collects stored) (member : fragment ∈ stored) :
    assembly.set = some fragment.set := by
  have suits := collects.suits
  rw [collects.set]
  cases stored with
  | nil => exact absurd member List.not_mem_nil
  | cons first others =>
      rcases List.mem_cons.mp member with rfl | later
      · rfl
      · have same := ((List.pairwise_cons.mp suits).1 fragment later).set
        rw [List.head?_cons, Option.map_some, same]

theorem set_iff (collects : assembly.Collects stored) :
    assembly.set.getD fragment.set = fragment.set ↔
      ∀ earlier ∈ stored, earlier.set = fragment.set := by
  constructor
  · intro same earlier member
    rwa [collects.set_of_mem member] at same
  · intro same
    have first := collects.set
    cases stored with
    | nil => rw [first]; rfl
    | cons earlier others => rw [first, ← same earlier List.mem_cons_self]; rfl

theorem numbers (collects : assembly.Collects stored) :
    assembly.arrived.map Prod.fst = stored.map Fragment.number := by
  rw [collects.arrived, List.map_map]
  rfl

theorem arrived_iff (collects : assembly.Collects stored) :
    assembly.arrived.any (·.1 == fragment.number) = false ↔
      ∀ earlier ∈ stored, earlier.number ≠ fragment.number := by
  rw [fresh_iff, collects.numbers, List.mem_map, not_exists]
  simp only [not_and, ne_eq]

theorem forall_parts (collects : assembly.Collects stored) {property : Part → Prop} :
    (∀ part ∈ assembly.parts, property part) ↔
      ∀ earlier ∈ stored, earlier.data ≠ [] → property (earlier.start, earlier.data) := by
  constructor
  · intro parts earlier member filled
    refine parts _ (collects.parts.mem_iff.mpr (List.mem_map.mpr ⟨earlier, ?_, rfl⟩))
    exact List.mem_filter.mpr ⟨member, by simpa using filled⟩
  · intro fragments part member
    obtain ⟨earlier, listed, rfl⟩ := List.mem_map.mp (collects.parts.mem_iff.mp member)
    obtain ⟨member, filled⟩ := List.mem_filter.mp listed
    exact fragments earlier member (by simpa using filled)

theorem clear_of_suits (collects : assembly.Collects stored)
    (suits : ∀ earlier ∈ stored, earlier.Suits fragment) :
    ∀ part ∈ assembly.parts, Clear fragment.start fragment.stop part :=
  collects.forall_parts.mpr fun earlier member => (suits earlier member).clear

/-- Nothing is wrong with a fragment if and only if it suits those that are stored. -/
theorem objection?_eq_none_iff (collects : assembly.Collects stored)
    (fits : fragment.data.length < 2 ^ 32) :
    assembly.objection? fragment = none ↔
      fragment.InRange ∧ ∀ earlier ∈ stored, earlier.Suits fragment := by
  have stop := Fragment.stop_of_fits fits
  rw [objection?_eq_none, collects.set_iff, collects.arrived_iff,
    overlaps_eq_false_iff collects.inOrder]
  constructor
  · rintro ⟨-, same, counted, fresh, inside, clear⟩
    refine ⟨⟨counted, stop ▸ inside⟩, fun earlier member => ?_⟩
    exact ⟨same earlier member, fresh earlier member, collects.forall_parts.mp clear earlier member⟩
  · rintro ⟨⟨counted, inside⟩, suits⟩
    exact ⟨collects.waits, fun earlier member => (suits earlier member).set, counted,
      fun earlier member => (suits earlier member).number, stop ▸ inside,
      collects.clear_of_suits suits⟩

theorem store (collects : assembly.Collects stored) (fits : fragment.data.length < 2 ^ 32)
    (inRange : fragment.InRange) (suits : ∀ earlier ∈ stored, earlier.Suits fragment) :
    (assembly.store fragment).Collects (stored ++ [fragment]) where
  waits := collects.waits
  set := by
    cases stored with
    | nil => rfl
    | cons first others => exact congrArg some (suits first List.mem_cons_self).set.symm
  arrived := by
    rw [List.map_append, ← collects.arrived, List.map_singleton, ← Fragment.length_of_fits fits]
    rfl
  parts := by
    rw [List.filter_append, List.map_append, Assembly.store]
    by_cases dataless : fragment.data.isEmpty
    · rw [if_pos dataless, List.filter_cons_of_neg (by simp [dataless]), List.filter_nil,
        List.map_nil, List.append_nil]
      exact collects.parts
    · have free : ∀ part ∈ assembly.parts, part.1 ≠ fragment.start := fun part member =>
        (collects.clear_of_suits suits part member).ne (collects.inOrder.filled part member)
      rw [if_neg dataless, List.filter_cons_of_pos (by simp [dataless]), List.filter_nil,
        List.map_singleton]
      exact ((insertPart_perm free).trans (collects.parts.cons _)).trans
        (List.perm_append_singleton _ _).symm
  inOrder := by
    have clear := collects.clear_of_suits suits
    rw [Fragment.stop_of_fits fits] at clear
    rw [Assembly.store]
    split
    · exact collects.inOrder
    · next filled =>
        have nonempty : 0 < fragment.data.length :=
          List.length_pos_iff.mpr fun dataless => filled (List.isEmpty_iff.mpr dataless)
        exact collects.inOrder.insertPart nonempty clear
  inRange := by
    intro other member
    rcases List.mem_append.mp member with member | member
    · exact collects.inRange other member
    · exact List.mem_singleton.mp member ▸ inRange
  suits := by
    refine List.pairwise_append.mpr ⟨collects.suits, List.pairwise_singleton _ _, ?_⟩
    intro earlier member other last
    exact List.mem_singleton.mp last ▸ suits earlier member
  fits := by
    intro other member
    rcases List.mem_append.mp member with member | member
    · exact collects.fits other member
    · exact List.mem_singleton.mp member ▸ fits

theorem received_eq (collects : assembly.Collects stored) :
    assembly.received = stored.length := by
  rw [received, collects.arrived, List.length_map]

theorem numbered (collects : assembly.Collects stored) : assembly.Numbered := by
  constructor
  · rw [collects.numbers, List.Nodup, List.pairwise_map]
    exact collects.suits.imp Fragment.Suits.number
  · rw [collects.numbers, List.forall_mem_map]
    exact fun fragment member =>
      ⟨fragment.set, collects.set_of_mem member, (collects.inRange fragment member).1⟩

theorem numbers_perm (collects : assembly.Collects stored) (member : fragment ∈ stored)
    (full : fragment.count.toNat ≤ stored.length) :
    (stored.map (·.number.toNat)).Perm (List.range fragment.count.toNat) := by
  have all := collects.numbered.perm (collects.set_of_mem member) (collects.received_eq ▸ full)
  rw [collects.arrived, List.map_map] at all
  exact all

/-! ## The whole payload -/

theorem covered_eq (collects : assembly.Collects stored) :
    assembly.covered = total (stored.map (·.data.length)) := by
  rw [covered, collects.arrived, List.map_map]
  rfl

theorem total_filled (fragments : List Fragment) :
    total ((fragments.filter (!·.data.isEmpty)).map (·.data.length)) =
      total (fragments.map (·.data.length)) := by
  induction fragments with
  | nil => rfl
  | cons fragment fragments ih =>
      by_cases dataless : fragment.data.isEmpty
      · rw [List.filter_cons_of_neg (by simp [dataless]), ih, List.map_cons, total,
          List.isEmpty_iff.mp dataless, List.length_nil, Nat.zero_add]
      · rw [List.filter_cons_of_pos (by simp [dataless]), List.map_cons, List.map_cons, total,
          total, ih]

theorem total_parts (collects : assembly.Collects stored) :
    total (assembly.parts.map fun part => part.2.length) = assembly.covered := by
  rw [collects.covered_eq, ← total_filled, total_eq_sum, total_eq_sum,
    (collects.parts.map _).sum_nat, List.map_map]
  rfl

/-- Parts that take up the whole length tile the payload. -/
theorem tiles (collects : assembly.Collects stored) (member : fragment ∈ stored)
    (full : assembly.covered = fragment.total.toNat) :
    Tiles 0 assembly.parts fragment.total.toNat := by
  apply collects.inOrder.tiles
  · refine collects.forall_parts.mpr fun other listed _ => ⟨Nat.zero_le _, ?_⟩
    have same : some other.set = some fragment.set :=
      (collects.set_of_mem listed).symm.trans (collects.set_of_mem member)
    have totals : other.total = fragment.total :=
      congrArg FragmentSet.total (Option.some.inj same)
    rw [← totals]
    exact (collects.inRange other listed).2
  · rw [Nat.zero_add, collects.total_parts, full]

end Collects

/-- The fragments belong to one payload and make it up: each number that is counted occurs
once, no two of them share a byte, and each has its data at its place. -/
structure Assembled (set : FragmentSet) (fragments : List Fragment) (payload : List UInt8) :
    Prop where
  agree : ∀ fragment ∈ fragments, fragment.set = set
  numbers : (fragments.map (·.number.toNat)).Perm (List.range set.count.toNat)
  length : payload.length = set.total.toNat
  disjoint : fragments.Pairwise fun first second => first.data ≠ [] → second.data ≠ [] →
    first.stop ≤ second.start ∨ second.stop ≤ first.start
  covers : ∀ place < set.total.toNat, ∃ fragment ∈ fragments,
    fragment.start ≤ place ∧ place < fragment.stop
  inside : ∀ fragment ∈ fragments, fragment.stop ≤ set.total.toNat
  placed : ∀ fragment ∈ fragments,
    (payload.drop fragment.start).take fragment.data.length = fragment.data

theorem Collects.assembled (collects : assembly.Collects stored) (member : fragment ∈ stored)
    (complete : fragment.count.toNat ≤ stored.length)
    (full : assembly.covered = fragment.total.toNat) :
    Assembled fragment.set stored assembly.payload := by
  have tiles := collects.tiles member full
  have agree : ∀ other ∈ stored, other.set = fragment.set := fun other listed =>
    Option.some.inj ((collects.set_of_mem listed).symm.trans (collects.set_of_mem member))
  refine ⟨agree, collects.numbers_perm member complete, ?_, ?_, ?_, ?_, ?_⟩
  · have length := tiles.length_eq
    rwa [Nat.zero_add] at length
  · refine collects.suits.imp_of_mem ?_
    intro first second listed _ suits filled _
    rcases suits.clear filled with ends | ⟨begins, -⟩
    · rw [Fragment.stop_of_fits (collects.fits first listed)]
      exact .inl ends
    · exact .inr begins
  · intro place below
    obtain ⟨part, member, bounds⟩ := tiles.covers (Nat.zero_le place) below
    have source : ∀ part ∈ assembly.parts, ∃ other ∈ stored, part = (other.start, other.data) :=
      collects.forall_parts.mpr fun other listed _ => ⟨other, listed, rfl⟩
    obtain ⟨other, listed, rfl⟩ := source part member
    refine ⟨other, listed, bounds.1, ?_⟩
    rw [Fragment.stop_of_fits (collects.fits other listed)]
    exact bounds.2
  · intro other listed
    have totals : other.total = fragment.total := congrArg FragmentSet.total (agree other listed)
    rw [Fragment.stop_of_fits (collects.fits other listed)]
    change other.start + other.data.length ≤ fragment.total.toNat
    rw [← totals]
    exact (collects.inRange other listed).2
  · intro other listed
    by_cases dataless : other.data = []
    · rw [dataless, List.length_nil, List.take_zero]
    · have found := collects.forall_parts.mp (fun part member => (tiles.slice member).2) other
        listed dataless
      exact found

/-! ## Arrivals -/

theorem add_of_objection {cause : Mismatch} (wrong : assembly.objection? fragment = some cause) :
    add fragment assembly = .error (.fragment fragment.wrapped cause) assembly := by
  rw [add, wrong]

/-- What comes of a fragment that suits those that are stored. -/
theorem Collects.add_of_suits (collects : assembly.Collects stored)
    (fits : fragment.data.length < 2 ^ 32) (inRange : fragment.InRange)
    (suits : ∀ earlier ∈ stored, earlier.Suits fragment) :
    add fragment assembly =
      if stored.length + 1 < fragment.count.toNat then .ok none (assembly.store fragment)
      else if (assembly.store fragment).covered = fragment.total.toNat then
        .ok (some (assembly.store fragment).payload)
          { assembly.store fragment with parts := [], complete := true }
      else
        .error (.fragment fragment.wrapped (.uncovered fragment.count
          (assembly.store fragment).covered fragment.total)) (assembly.store fragment) := by
  have received := (collects.store fits inRange suits).received_eq
  rw [List.length_append, List.length_singleton] at received
  rw [add, (collects.objection?_eq_none_iff fits).mpr ⟨inRange, suits⟩]
  simp only [received, ne_eq, ite_not]

def Spent (assembly : Assembly) : Prop :=
  ∀ fragment, ∃ fault, add fragment assembly = .error fault assembly

theorem spent_of_complete (complete : assembly.complete = true) : assembly.Spent := by
  intro fragment
  cases wrong : assembly.objection? fragment with
  | some cause => exact ⟨_, add_of_objection wrong⟩
  | none =>
      have waits := (objection?_eq_none.mp wrong).1
      rw [complete] at waits
      cases waits

/-- An assembly at which all numbers have arrived refuses whatever arrives. -/
theorem Numbered.spent (numbered : assembly.Numbered) {set : FragmentSet}
    (known : assembly.set = some set) (full : set.count.toNat ≤ assembly.received) :
    assembly.Spent := by
  intro other
  cases wrong : assembly.objection? other with
  | some cause => exact ⟨_, add_of_objection wrong⟩
  | none =>
      obtain ⟨-, same, counted, fresh, -⟩ := objection?_eq_none.mp wrong
      rw [known, Option.getD_some] at same
      have below : other.number.toNat < set.count.toNat :=
        same ▸ UInt32.lt_iff_toNat_lt.mp counted
      have listed := (numbered.perm known full).mem_iff.mpr (List.mem_range.mpr below)
      obtain ⟨entry, member, number⟩ := List.mem_map.mp listed
      exact absurd (List.mem_map.mpr ⟨entry, member, UInt32.toNat_inj.mp number⟩)
        (fresh_iff.mp fresh)

theorem Collects.spent (collects : assembly.Collects stored) (member : fragment ∈ stored)
    (full : fragment.count.toNat ≤ stored.length) : assembly.Spent :=
  collects.numbered.spent (collects.set_of_mem member) (collects.received_eq ▸ full)

def completes : Except Fault (Option (List UInt8)) → Bool
  | .ok (some _) => true
  | _ => false

open Attempts

namespace Spent

theorem final (spent : assembly.Spent) (arrivals : List Fragment) :
    Attempts.final add arrivals assembly = assembly := by
  induction arrivals with
  | nil => rfl
  | cons fragment arrivals ih =>
      obtain ⟨fault, failed⟩ := spent fragment
      rw [Attempts.final, left_of_error failed, ih]

theorem countP_completes (spent : assembly.Spent) (arrivals : List Fragment) :
    (outcomes add arrivals assembly).countP completes = 0 := by
  induction arrivals with
  | nil => rfl
  | cons fragment arrivals ih =>
      obtain ⟨fault, failed⟩ := spent fragment
      rw [outcomes, outcome_of_error failed, left_of_error failed,
        List.countP_cons_of_neg (by simp [completes])]
      exact ih

end Spent

inductive Arrival (assembly : Assembly) (stored : List Fragment) (fragment : Fragment) : Prop where
  | refused (fault : Fault) (result : add fragment assembly = .error fault assembly)
  | stored (result : add fragment assembly = .ok none (assembly.store fragment))
      (collects : (assembly.store fragment).Collects (stored ++ [fragment]))
  | uncovered (fault : Fault)
      (result : add fragment assembly = .error fault (assembly.store fragment))
      (spent : (assembly.store fragment).Spent)
  | completed (payload : List UInt8) (final : Assembly)
      (result : add fragment assembly = .ok (some payload) final)
      (assembled : Assembled fragment.set (stored ++ [fragment]) payload) (spent : final.Spent)

namespace Collects

theorem arrival (collects : assembly.Collects stored) (fits : fragment.data.length < 2 ^ 32) :
    Arrival assembly stored fragment := by
  cases wrong : assembly.objection? fragment with
  | some cause => exact .refused _ (add_of_objection wrong)
  | none =>
      obtain ⟨inRange, suits⟩ := (collects.objection?_eq_none_iff fits).mp wrong
      have result := collects.add_of_suits fits inRange suits
      have collects := collects.store fits inRange suits
      have last : fragment ∈ stored ++ [fragment] := List.mem_append_right _ List.mem_cons_self
      split at result
      · exact .stored result collects
      · next enough =>
          have full : fragment.count.toNat ≤ (stored ++ [fragment]).length := by
            rw [List.length_append, List.length_singleton]
            exact Nat.le_of_not_lt enough
          split at result
          · next covered =>
              exact .completed _ _ result (collects.assembled last full covered)
                (spent_of_complete rfl)
          · exact .uncovered _ result (collects.spent last full)

/-- Behind any arrivals the assembly has stored all that it has accepted, or it refuses
whatever arrives. -/
theorem final (collects : assembly.Collects stored) {arrivals : List Fragment}
    (fits : ∀ fragment ∈ arrivals, fragment.data.length < 2 ^ 32) :
    (Attempts.final add arrivals assembly).Collects (stored ++ accepted add arrivals assembly) ∨
      (Attempts.final add arrivals assembly).Spent := by
  induction arrivals generalizing assembly stored with
  | nil => exact .inl (by rw [accepted, List.append_nil]; exact collects)
  | cons fragment arrivals ih =>
      obtain ⟨fitsFirst, fitsOthers⟩ := List.forall_mem_cons.mp fits
      rw [Attempts.final]
      cases collects.arrival fitsFirst with
      | refused fault result =>
          rw [left_of_error result, accepted_cons_of_error result]
          exact ih collects fitsOthers
      | stored result collects =>
          rw [left_of_ok result, accepted_cons_of_ok result, List.append_cons]
          exact ih collects fitsOthers
      | uncovered fault result spent =>
          rw [left_of_error result, spent.final]
          exact .inr spent
      | completed payload final result assembled spent =>
          rw [left_of_ok result, spent.final]
          exact .inr spent

theorem countP_completes (collects : assembly.Collects stored) {arrivals : List Fragment}
    (fits : ∀ fragment ∈ arrivals, fragment.data.length < 2 ^ 32) :
    (outcomes add arrivals assembly).countP completes ≤ 1 := by
  induction arrivals generalizing assembly stored with
  | nil => exact Nat.zero_le 1
  | cons fragment arrivals ih =>
      obtain ⟨fitsFirst, fitsOthers⟩ := List.forall_mem_cons.mp fits
      rw [outcomes, List.countP_cons]
      cases collects.arrival fitsFirst with
      | refused fault result =>
          rw [outcome_of_error result, left_of_error result]
          exact ih collects fitsOthers
      | stored result collects =>
          rw [outcome_of_ok result, left_of_ok result]
          exact ih collects fitsOthers
      | uncovered fault result spent =>
          rw [outcome_of_error result, left_of_error result, spent.countP_completes]
          exact Nat.zero_le 1
      | completed payload final result assembled spent =>
          rw [outcome_of_ok result, left_of_ok result, spent.countP_completes]
          exact Nat.le_refl 1

end Collects

/-- Whatever fragments arrive at an empty assembly, a payload comes out at most once; and
when it does, it is made up of exactly the fragments that were accepted until then, the last
of which completed it. -/
theorem add_completes (arrivals : List Fragment)
    (fits : ∀ fragment ∈ arrivals, fragment.data.length < 2 ^ 32) :
    (outcomes add arrivals empty).countP completes ≤ 1 ∧
    ∀ before last rest payload, arrivals = before ++ last :: rest →
      outcome (add last) (Attempts.final add before empty) = .ok (some payload) →
      Assembled last.set (accepted add (before ++ [last]) empty) payload := by
  refine ⟨collects_empty.countP_completes fits, ?_⟩
  rintro before last rest payload rfl done
  obtain ⟨fitsBefore, fitsRest⟩ := List.forall_mem_append.mp fits
  have fitsLast := fitsRest last List.mem_cons_self
  rcases collects_empty.final fitsBefore with collects | spent
  · cases collects.arrival fitsLast with
    | completed found final result assembled =>
        rw [outcome_of_ok result] at done
        cases done
        rw [accepted_append, accepted_cons_of_ok result]
        exact assembled
    | refused fault result | uncovered fault result =>
        rw [outcome_of_error result] at done
        cases done
    | stored result =>
        rw [outcome_of_ok result] at done
        cases done
  · obtain ⟨fault, failed⟩ := spent last
    rw [outcome_of_error failed] at done
    cases done

/-- The second of two fragments arrives first and once more before the other one, which
completes the payload. -/
theorem add_completes_two :
    (outcomes add [⟨7, 1, 2, 3, 2, [9]⟩, ⟨7, 1, 2, 3, 2, [9]⟩, ⟨7, 0, 2, 3, 0, [4, 5]⟩]
      empty).countP completes ≤ 1 ∧
    Assembled ⟨7, 2, 3⟩ [⟨7, 1, 2, 3, 2, [9]⟩, ⟨7, 0, 2, 3, 0, [4, 5]⟩] [4, 5, 9] := by
  have fits : ∀ fragment ∈
      ([⟨7, 1, 2, 3, 2, [9]⟩, ⟨7, 1, 2, 3, 2, [9]⟩, ⟨7, 0, 2, 3, 0, [4, 5]⟩] : List Fragment),
      fragment.data.length < 2 ^ 32 := by decide
  obtain ⟨once, assembled⟩ := add_completes _ fits
  exact ⟨once, assembled [⟨7, 1, 2, 3, 2, [9]⟩, ⟨7, 1, 2, 3, 2, [9]⟩] ⟨7, 0, 2, 3, 0, [4, 5]⟩ []
    [4, 5, 9] rfl rfl⟩

end Assembly

end MatchTape.Packet
