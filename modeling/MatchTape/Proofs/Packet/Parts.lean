import Mathlib.Algebra.GroupWithZero.Nat
import Mathlib.Data.List.TakeWhile
import MatchTape.Packet.Assembly

/-!
# Parts in their places

The parts of an assembly stand one behind the other, so that a range overlaps none of them
if it overlaps neither of its neighbours.  Parts that stand in a range and take as much room
as it has leave no gap: they tile it, and the bytes of each are found at its place.
-/

namespace MatchTape.Packet

theorem total_eq_sum (sizes : List Nat) : total sizes = sizes.sum := by
  induction sizes with
  | nil => rfl
  | cons size sizes ih => rw [total, ih, List.sum_cons]

abbrev Part := Nat × List UInt8

namespace Assembly

variable {parts rest : List Part} {part first : Part} {place start stop low high : Nat}
  {data : List UInt8}

structure InOrder (parts : List Part) : Prop where
  ascending : parts.Pairwise fun left right => left.1 + left.2.length ≤ right.1
  filled : ∀ part ∈ parts, 0 < part.2.length

namespace InOrder

theorem nil : InOrder [] :=
  ⟨List.Pairwise.nil, fun _ member => absurd member List.not_mem_nil⟩

theorem cons_iff : InOrder (first :: rest) ↔
    (∀ part ∈ rest, first.1 + first.2.length ≤ part.1) ∧ 0 < first.2.length ∧ InOrder rest := by
  constructor
  · rintro ⟨ascending, filled⟩
    rw [List.pairwise_cons] at ascending
    rw [List.forall_mem_cons] at filled
    exact ⟨ascending.1, filled.1, ascending.2, filled.2⟩
  · rintro ⟨before, nonempty, ascending, filled⟩
    exact ⟨List.pairwise_cons.mpr ⟨before, ascending⟩,
      List.forall_mem_cons.mpr ⟨nonempty, filled⟩⟩

theorem later (inOrder : InOrder (first :: rest)) : ∀ part ∈ rest, first.1 < part.1 := by
  intro part member
  obtain ⟨before, nonempty, -⟩ := cons_iff.mp inOrder
  have ends := before part member
  omega

end InOrder

/-! ## Neighbours -/

/-- A range shares no byte with a part; a range without bytes does not begin in it. -/
def Clear (start stop : Nat) (part : Part) : Prop :=
  part.1 + part.2.length ≤ start ∨ stop ≤ part.1 ∧ start < part.1

/-- The parts that begin at or before a place stand in front of all others. -/
theorem InOrder.mem_takeWhile (inOrder : InOrder parts) (member : part ∈ parts)
    (before : part.1 ≤ place) : part ∈ parts.takeWhile fun part => part.1 ≤ place := by
  induction parts with
  | nil => exact absurd member List.not_mem_nil
  | cons first rest ih =>
      have later := inOrder.later
      obtain ⟨-, -, others⟩ := InOrder.cons_iff.mp inOrder
      rcases List.mem_cons.mp member with rfl | member
      · rw [List.takeWhile_cons_of_pos (by simpa using before)]
        exact List.mem_cons_self
      · have early : first.1 ≤ place := Nat.le_trans (Nat.le_of_lt (later part member)) before
        rw [List.takeWhile_cons_of_pos (by simpa using early)]
        exact List.mem_cons_of_mem first (ih others member)

theorem mem_dropWhile (member : part ∈ parts) (behind : place ≤ part.1) :
    part ∈ parts.dropWhile fun part => part.1 < place := by
  rw [← List.takeWhile_append_dropWhile (p := fun part : Part => part.1 < place) (l := parts),
    List.mem_append] at member
  rcases member with front | back
  · have early := List.mem_takeWhile_imp front
    rw [decide_eq_true_eq] at early
    omega
  · exact back

/-- If the last part up to a place ends there, all of them do. -/
theorem clear_before (inOrder : InOrder parts) :
    ((parts.takeWhile fun part => part.1 ≤ place).getLast?.any fun part =>
        decide (place < part.1 + part.2.length)) = false ↔
      ∀ part ∈ parts, part.1 ≤ place → part.1 + part.2.length ≤ place := by
  have front := List.takeWhile_sublist (l := parts) fun part : Part => decide (part.1 ≤ place)
  have ascending := inOrder.ascending.sublist front
  constructor
  · intro clear part member before
    have taken := inOrder.mem_takeWhile member before
    rcases List.eq_nil_or_concat (parts.takeWhile fun part => part.1 ≤ place) with
      outside | ⟨earlier, last, split⟩
    · rw [outside] at taken
      exact absurd taken List.not_mem_nil
    · rw [List.concat_eq_append] at split
      rw [split, List.getLast?_concat, Option.any_some, decide_eq_false_iff_not] at clear
      rw [split] at taken ascending
      rcases List.mem_append.mp taken with earlier | final
      · have ends := (List.pairwise_append.mp ascending).2.2 part earlier last List.mem_cons_self
        omega
      · rw [List.mem_singleton.mp final]
        omega
  · intro clear
    cases found : (parts.takeWhile fun part => decide (part.1 ≤ place)).getLast? with
    | none => rfl
    | some last =>
        have taken := List.mem_of_getLast? found
        have before := List.mem_takeWhile_imp taken
        have ends := clear last (front.subset taken) (of_decide_eq_true before)
        rw [Option.any_some, decide_eq_false_iff_not]
        omega

/-- If the first part from a place on begins behind a range, all of them do. -/
theorem clear_behind (inOrder : InOrder parts) :
    ((parts.dropWhile fun part => part.1 < place).head?.any fun part =>
        decide (part.1 < stop) && place != stop) = false ↔
      ∀ part ∈ parts, place ≤ part.1 → stop ≤ part.1 ∨ place = stop := by
  have back := List.dropWhile_sublist (l := parts) fun part : Part => decide (part.1 < place)
  have ascending := inOrder.ascending.sublist back
  constructor
  · intro clear part member behind
    have left := mem_dropWhile member behind
    cases split : parts.dropWhile fun part => decide (part.1 < place) with
    | nil =>
        rw [split] at left
        exact absurd left List.not_mem_nil
    | cons next others =>
        rw [split, List.head?_cons, Option.any_some, Bool.and_eq_false_iff,
          decide_eq_false_iff_not, bne_eq_false_iff_eq] at clear
        rw [split] at left ascending
        rcases clear with clear | empty
        · rcases List.mem_cons.mp left with rfl | later
          · exact .inl (Nat.le_of_not_lt clear)
          · have ends := (List.pairwise_cons.mp ascending).1 part later
            exact .inl (by omega)
        · exact .inr empty
  · intro clear
    cases split : parts.dropWhile fun part => decide (part.1 < place) with
    | nil => rfl
    | cons next others =>
        have left : next ∈ parts.dropWhile fun part => decide (part.1 < place) :=
          split ▸ List.mem_cons_self
        have behind : place ≤ next.1 := by
          have refused :=
            List.head?_dropWhile_not (fun part : Part => decide (part.1 < place)) parts
          rw [split] at refused
          simpa using refused
        rw [List.head?_cons, Option.any_some, Bool.and_eq_false_iff, decide_eq_false_iff_not,
          bne_eq_false_iff_eq, Nat.not_lt]
        exact clear next (back.subset left) behind

/-- Comparing a range with its two neighbours tells whether it is clear of all parts. -/
theorem overlaps_eq_false_iff {assembly : Assembly} (inOrder : InOrder assembly.parts) :
    assembly.overlaps start stop = false ↔ ∀ part ∈ assembly.parts, Clear start stop part := by
  rw [overlaps, Bool.or_eq_false_iff, partUpTo, partFrom, clear_before inOrder,
    clear_behind inOrder]
  constructor
  · rintro ⟨before, behind⟩ part member
    rcases Nat.lt_or_ge start part.1 with later | earlier
    · rcases behind part member (Nat.le_of_lt later) with clear | empty
      · exact .inr ⟨clear, later⟩
      · exact .inr ⟨empty ▸ Nat.le_of_lt later, later⟩
    · exact .inl (before part member earlier)
  · intro clear
    refine ⟨fun part member earlier => ?_, fun part member later => ?_⟩
    · rcases clear part member with ends | ⟨-, begins⟩
      · exact ends
      · omega
    · have nonempty := inOrder.filled part member
      rcases clear part member with ends | ⟨begins, -⟩
      · omega
      · exact .inl begins

/-! ## Putting a part in its place -/

theorem Clear.ne (clear : Clear start stop part) (nonempty : 0 < part.2.length) :
    part.1 ≠ start := by
  rcases clear with ends | ⟨-, begins⟩ <;> omega

theorem insertPart_perm (free : ∀ part ∈ parts, part.1 ≠ place) :
    (insertPart place data parts).Perm ((place, data) :: parts) := by
  induction parts with
  | nil => exact List.Perm.refl _
  | cons first rest ih =>
      have other := free first List.mem_cons_self
      have others := ih fun part member => free part (List.mem_cons_of_mem _ member)
      rw [insertPart]
      split
      · exact List.Perm.refl _
      · rw [if_neg other.symm]
        exact (others.cons first).trans (List.Perm.swap _ _ _)

/-- A part that is clear of all others is put between two of them. -/
theorem InOrder.insertPart (inOrder : InOrder parts) (nonempty : 0 < data.length)
    (clear : ∀ part ∈ parts, Clear place (place + data.length) part) :
    InOrder (Assembly.insertPart place data parts) := by
  induction parts with
  | nil => exact cons_iff.mpr ⟨fun _ member => absurd member List.not_mem_nil, nonempty, nil⟩
  | cons first rest ih =>
      have later := inOrder.later
      obtain ⟨before, filled, others⟩ := cons_iff.mp inOrder
      have clearRest : ∀ part ∈ rest, Clear place (place + data.length) part :=
        fun part member => clear part (List.mem_cons_of_mem _ member)
      rw [Assembly.insertPart]
      split
      · next early =>
          refine cons_iff.mpr ⟨fun part member => ?_, nonempty, inOrder⟩
          have behind : place < part.1 := by
            rcases List.mem_cons.mp member with rfl | member
            · exact early
            · exact Nat.lt_trans early (later part member)
          rcases clear part member with ends | ⟨begins, -⟩
          · omega
          · exact begins
      · next late =>
          have free := (clear first List.mem_cons_self).ne filled
          rw [if_neg free.symm]
          refine cons_iff.mpr ⟨fun part member => ?_, filled, ih others clearRest⟩
          have placed := (insertPart_perm fun part member =>
            (clearRest part member).ne (others.filled part member)).subset member
          rcases List.mem_cons.mp placed with rfl | member
          · rcases clear first List.mem_cons_self with ends | ⟨-, begins⟩
            · exact ends
            · omega
          · exact before part member

/-! ## Parts without gaps -/

/-- The parts begin at one place, end at another and leave no gap in between. -/
inductive Tiles : Nat → List Part → Nat → Prop where
  | nil (place : Nat) : Tiles place [] place
  | cons {place stop : Nat} {data : List UInt8} {rest : List Part}
      (others : Tiles (place + data.length) rest stop) : Tiles place ((place, data) :: rest) stop

theorem InOrder.total_le (inOrder : InOrder parts) (forward : low ≤ high)
    (within : ∀ part ∈ parts, low ≤ part.1 ∧ part.1 + part.2.length ≤ high) :
    low + total (parts.map fun part => part.2.length) ≤ high := by
  induction parts generalizing low with
  | nil => exact forward
  | cons first rest ih =>
      obtain ⟨before, -, others⟩ := cons_iff.mp inOrder
      have inside := within first List.mem_cons_self
      have rest := ih others inside.2 fun part member =>
        ⟨before part member, (within part (List.mem_cons_of_mem _ member)).2⟩
      rw [List.map_cons, total]
      omega

/-- Parts that take all the room of a range leave no gap in it. -/
theorem InOrder.tiles (inOrder : InOrder parts)
    (within : ∀ part ∈ parts, low ≤ part.1 ∧ part.1 + part.2.length ≤ high)
    (full : low + total (parts.map fun part => part.2.length) = high) : Tiles low parts high := by
  induction parts generalizing low with
  | nil => exact full ▸ Tiles.nil low
  | cons first rest ih =>
      obtain ⟨place, data⟩ := first
      obtain ⟨before, -, others⟩ := cons_iff.mp inOrder
      have inside := within (place, data) List.mem_cons_self
      have withinRest : ∀ part ∈ rest, place + data.length ≤ part.1 ∧
          part.1 + part.2.length ≤ high := fun part member =>
        ⟨before part member, (within part (List.mem_cons_of_mem _ member)).2⟩
      have room : place + data.length + total (rest.map fun part => part.2.length) ≤ high :=
        others.total_le inside.2 withinRest
      have size : low + (data.length + total (rest.map fun part => part.2.length)) = high := full
      have begins : place = low := by
        have above : low ≤ place := inside.1
        omega
      subst begins
      exact Tiles.cons (ih others withinRest (by omega))

namespace Tiles

theorem length_eq (tiles : Tiles low parts high) :
    low + (parts.flatMap Prod.snd).length = high := by
  induction tiles with
  | nil place => rfl
  | cons others ih =>
      rw [List.flatMap_cons, List.length_append, ← Nat.add_assoc]
      exact ih

theorem covers (tiles : Tiles low parts high) (above : low ≤ place) (below : place < high) :
    ∃ part ∈ parts, part.1 ≤ place ∧ place < part.1 + part.2.length := by
  induction tiles with
  | nil low => omega
  | @cons low high data rest others ih =>
      rcases Nat.lt_or_ge place (low + data.length) with inside | behind
      · exact ⟨(low, data), List.mem_cons_self, above, inside⟩
      · obtain ⟨part, member, bounds⟩ := ih behind below
        exact ⟨part, List.mem_cons_of_mem _ member, bounds⟩

theorem slice (tiles : Tiles low parts high) (member : part ∈ parts) :
    low ≤ part.1 ∧
      ((parts.flatMap Prod.snd).drop (part.1 - low)).take part.2.length = part.2 := by
  induction tiles with
  | nil low => exact absurd member List.not_mem_nil
  | @cons low high data rest others ih =>
      rw [List.flatMap_cons]
      rcases List.mem_cons.mp member with rfl | member
      · simp only [Nat.sub_self, List.drop_zero, List.take_left, Nat.le_refl, true_and]
      · obtain ⟨behind, found⟩ := ih member
        refine ⟨by omega, ?_⟩
        have skip : part.1 - low = data.length + (part.1 - (low + data.length)) := by omega
        rw [skip, List.drop_append, List.drop_of_length_le (Nat.le_add_right _ _), List.nil_append,
          Nat.add_sub_cancel_left]
        exact found

end Tiles

end Assembly

end MatchTape.Packet
