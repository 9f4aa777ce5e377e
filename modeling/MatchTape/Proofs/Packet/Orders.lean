import MatchTape.Proofs.Packet.Arrivals

/-!
# Orders of arrival

Fragments that make up a payload do so in every order but those in which a fragment without
data arrives behind the data that it falls into: there it is taken for an overlap.  All else
that an assembly asks of two fragments it asks of either with the other.
-/

namespace MatchTape.Packet

namespace Fragment

/-- The fragment has no data, and its place is one that the other has data for. -/
def FallsInto (fragment other : Fragment) : Prop :=
  fragment.data = [] ∧ other.start ≤ fragment.start ∧ fragment.start < other.stop

instance (fragment other : Fragment) : Decidable (fragment.FallsInto other) :=
  inferInstanceAs (Decidable (_ ∧ _ ∧ _))

structure Apart (fragment other : Fragment) : Prop where
  set : fragment.set = other.set
  number : fragment.number ≠ other.number
  disjoint : fragment.data ≠ [] → other.data ≠ [] →
    fragment.stop ≤ other.start ∨ other.stop ≤ fragment.start

theorem Apart.symm {fragment other : Fragment} (apart : fragment.Apart other) :
    other.Apart fragment :=
  ⟨apart.set.symm, apart.number.symm, fun filled otherFilled =>
    (apart.disjoint otherFilled filled).symm⟩

variable {earlier later : Fragment}

/-- What a later fragment must not do is overlap the earlier one or fall into it. -/
theorem suits_iff (fits : earlier.data.length < 2 ^ 32) (laterFits : later.data.length < 2 ^ 32) :
    earlier.Suits later ↔ earlier.Apart later ∧ ¬ later.FallsInto earlier := by
  have stop := stop_of_fits fits
  have laterStop := stop_of_fits laterFits
  constructor
  · intro suits
    refine ⟨⟨suits.set, suits.number, fun filled _ => ?_⟩, ?_⟩
    · rcases suits.clear filled with ends | ⟨begins, -⟩
      · exact .inl (stop ▸ ends)
      · exact .inr begins
    · rintro ⟨-, begins, inside⟩
      have filled : earlier.data ≠ [] := by
        intro dataless
        rw [dataless, List.length_nil] at stop
        omega
      rcases suits.clear filled with ends | ⟨-, behind⟩
      · rw [stop] at inside
        exact absurd inside (Nat.not_lt.mpr ends)
      · exact absurd behind (Nat.not_lt.mpr begins)
  · rintro ⟨apart, outside⟩
    refine ⟨apart.set, apart.number, fun filled => ?_⟩
    have positive := List.length_pos_iff.mpr filled
    rw [Assembly.Clear, ← stop]
    by_cases dataless : later.data = []
    · rw [dataless, List.length_nil] at laterStop
      rcases Nat.lt_or_ge later.start earlier.start with before | behind
      · exact .inr ⟨by omega, before⟩
      · exact .inl (Nat.not_lt.mp fun inside => outside ⟨dataless, behind, inside⟩)
    · have laterPositive := List.length_pos_iff.mpr dataless
      rcases apart.disjoint filled dataless with ends | begins
      · exact .inl ends
      · exact .inr ⟨begins, by omega⟩

theorem pairwise_suits_iff {fragments : List Fragment}
    (fits : ∀ fragment ∈ fragments, fragment.data.length < 2 ^ 32) :
    fragments.Pairwise Suits ↔
      fragments.Pairwise Apart ∧
        fragments.Pairwise fun earlier later => ¬ later.FallsInto earlier := by
  rw [← List.pairwise_and_iff]
  exact List.Pairwise.iff_of_mem fun {earlier later} member listed =>
    suits_iff (fits earlier member) (fits later listed)

end Fragment

namespace Assembly

open Attempts

variable {assembly : Assembly} {stored before fragments others : List Fragment}
  {last : Fragment} {payload : List UInt8}

/-! ## Fragments that are accepted -/

theorem Collects.accepts (collects : assembly.Collects stored)
    (fits : ∀ fragment ∈ fragments, fragment.data.length < 2 ^ 32)
    (inRange : ∀ fragment ∈ fragments, fragment.InRange)
    (suits : (stored ++ fragments).Pairwise Fragment.Suits)
    (more : ∀ fragment ∈ fragments, stored.length + fragments.length < fragment.count.toNat) :
    Attempts.accepted add fragments assembly = fragments ∧
      (Attempts.final add fragments assembly).Collects (stored ++ fragments) := by
  induction fragments generalizing assembly stored with
  | nil =>
      rw [List.append_nil]
      exact ⟨rfl, collects⟩
  | cons fragment fragments ih =>
      obtain ⟨fitsFirst, fitsOthers⟩ := List.forall_mem_cons.mp fits
      obtain ⟨inRangeFirst, inRangeOthers⟩ := List.forall_mem_cons.mp inRange
      obtain ⟨moreFirst, moreOthers⟩ := List.forall_mem_cons.mp more
      have suitsFirst : ∀ earlier ∈ stored, earlier.Suits fragment := fun earlier member =>
        (List.pairwise_append.mp suits).2.2 earlier member fragment List.mem_cons_self
      have result := collects.add_of_suits fitsFirst inRangeFirst suitsFirst
      rw [List.length_cons] at moreFirst
      rw [if_pos (by omega)] at result
      rw [List.append_cons] at suits ⊢
      obtain ⟨all, collecting⟩ := ih (collects.store fitsFirst inRangeFirst suitsFirst) fitsOthers
        inRangeOthers suits fun other member => by
          have counted := moreOthers other member
          rw [List.length_append, List.length_singleton]
          rw [List.length_cons] at counted
          omega
      rw [accepted_cons_of_ok result, all, Attempts.final, left_of_ok result]
      exact ⟨rfl, collecting⟩

/-- If the last fragment is accepted too, all those before it have been stored. -/
theorem collects_of_accepted
    (fits : ∀ fragment ∈ before ++ [last], fragment.data.length < 2 ^ 32)
    (all : accepted add (before ++ [last]) empty = before ++ [last]) :
    (final add before empty).Collects before ∧ last.InRange ∧
      ∀ earlier ∈ before, earlier.Suits last := by
  obtain ⟨front, back⟩ := accepted_append_eq_self.mp all
  obtain ⟨value, after, result⟩ := accepted_singleton_eq_self.mp back
  obtain ⟨fitsBefore, fitsLast⟩ := List.forall_mem_append.mp fits
  rcases collects_empty.final fitsBefore with collects | spent
  · rw [front, List.nil_append] at collects
    refine ⟨collects, ?_⟩
    rw [← collects.objection?_eq_none_iff (fitsLast last List.mem_cons_self)]
    cases wrong : (final add before empty).objection? last with
    | none => rfl
    | some cause =>
        rw [add_of_objection wrong] at result
        cases result
  · obtain ⟨fault, failed⟩ := spent last
    rw [failed] at result
    cases result

theorem suits_of_accepted (fits : ∀ fragment ∈ fragments, fragment.data.length < 2 ^ 32)
    (all : accepted add fragments empty = fragments) :
    fragments.Pairwise Fragment.Suits := by
  rcases List.eq_nil_or_concat fragments with rfl | ⟨before, last, rfl⟩
  · exact List.Pairwise.nil
  · rw [List.concat_eq_append] at fits all ⊢
    obtain ⟨collects, -, suits⟩ := collects_of_accepted fits all
    refine List.pairwise_append.mpr ⟨collects.suits, List.pairwise_singleton _ _, ?_⟩
    intro earlier member other final
    exact List.mem_singleton.mp final ▸ suits earlier member

/-! ## Fragments that make up a payload -/

structure Assembles (fragments : List Fragment) (payload : List UInt8) : Prop where
  accepted : accepted add fragments empty = fragments
  last : (outcomes add fragments empty).getLast? = some (.ok (some payload))

/-- Fragments are as many as each of them counts and as long as each of them says, and they
belong together.  None of this depends on their order. -/
structure Whole (fragments : List Fragment) : Prop where
  fits : ∀ fragment ∈ fragments, fragment.data.length < 2 ^ 32
  inRange : ∀ fragment ∈ fragments, fragment.InRange
  apart : fragments.Pairwise Fragment.Apart
  counted : ∀ fragment ∈ fragments, fragment.count.toNat = fragments.length
  measured : ∀ fragment ∈ fragments,
    fragment.total.toNat = total (fragments.map (·.data.length))

theorem Whole.perm (whole : Whole fragments) (perm : others.Perm fragments) : Whole others := by
  have member : ∀ fragment ∈ others, fragment ∈ fragments := fun _ => perm.mem_iff.mp
  have size : total (others.map (·.data.length)) = total (fragments.map (·.data.length)) := by
    rw [total_eq_sum, total_eq_sum, (perm.map _).sum_nat]
  refine ⟨fun fragment listed => whole.fits fragment (member fragment listed),
    fun fragment listed => whole.inRange fragment (member fragment listed),
    (perm.pairwise_iff Fragment.Apart.symm).mpr whole.apart, ?_, ?_⟩
  · intro fragment listed
    rw [perm.length_eq]
    exact whole.counted fragment (member fragment listed)
  · intro fragment listed
    rw [size]
    exact whole.measured fragment (member fragment listed)

/-- Fragments that belong together make up a payload if they suit each other in their order. -/
theorem Whole.assembles (whole : Whole fragments) (nonempty : fragments ≠ [])
    (suits : fragments.Pairwise Fragment.Suits) :
    ∃ set payload, Assembles fragments payload ∧ Assembled set fragments payload := by
  rcases List.eq_nil_or_concat fragments with rfl | ⟨before, last, rfl⟩
  · exact absurd rfl nonempty
  · rw [List.concat_eq_append] at whole suits ⊢
    obtain ⟨fits, fitsLast⟩ := List.forall_mem_append.mp whole.fits
    obtain ⟨inRange, inRangeLast⟩ := List.forall_mem_append.mp whole.inRange
    obtain ⟨suitsBefore, -, suitsLast⟩ := List.pairwise_append.mp suits
    have final : last ∈ before ++ [last] := List.mem_append_right _ List.mem_cons_self
    have count := whole.counted last final
    have length : (before ++ [last]).length = before.length + 1 := List.length_append
    obtain ⟨front, collects⟩ := collects_empty.accepts fits inRange suitsBefore
      fun fragment member => by
        have counted := whole.counted fragment (List.mem_append_left _ member)
        rw [List.length_nil]
        omega
    rw [List.nil_append] at collects
    have fitting := fitsLast last List.mem_cons_self
    have ranging := inRangeLast last List.mem_cons_self
    have suiting : ∀ earlier ∈ before, earlier.Suits last := fun earlier member =>
      suitsLast earlier member last List.mem_cons_self
    have storing := collects.store fitting ranging suiting
    have covered := storing.covered_eq.trans (whole.measured last final).symm
    have result := collects.add_of_suits fitting ranging suiting
    rw [if_neg (by omega), if_pos covered] at result
    refine ⟨last.set, _, ⟨?_, ?_⟩, storing.assembled final count.le covered⟩
    · exact accepted_append_eq_self.mpr ⟨front, accepted_singleton_eq_self.mpr ⟨_, _, result⟩⟩
    · rw [outcomes_append, outcomes, outcome_of_ok result, outcomes, List.getLast?_concat]

/-- Fragments that have been stored belong together if they are as many and as long as the
last of them says. -/
theorem Collects.whole (collects : assembly.Collects fragments) (member : last ∈ fragments)
    (complete : last.count.toNat ≤ fragments.length)
    (full : assembly.covered = last.total.toNat) : Whole fragments := by
  have agree := (collects.assembled member complete full).agree
  have length := (collects.numbers_perm member complete).length_eq
  rw [List.length_map, List.length_range] at length
  refine ⟨collects.fits, collects.inRange,
    ((Fragment.pairwise_suits_iff collects.fits).mp collects.suits).1, ?_, ?_⟩
  · intro fragment listed
    have count : fragment.count = last.count := congrArg FragmentSet.count (agree fragment listed)
    rw [count, length]
  · intro fragment listed
    have size : fragment.total = last.total := congrArg FragmentSet.total (agree fragment listed)
    rw [size, ← full, collects.covered_eq]

/-- Fragments that make up a payload belong together and have its bytes. -/
theorem Assembles.whole (assembles : Assembles fragments payload)
    (fits : ∀ fragment ∈ fragments, fragment.data.length < 2 ^ 32) :
    fragments ≠ [] ∧ Whole fragments ∧ ∃ set, Assembled set fragments payload := by
  obtain ⟨all, brings⟩ := assembles
  rcases List.eq_nil_or_concat fragments with rfl | ⟨before, last, rfl⟩
  · cases brings
  · rw [List.concat_eq_append] at fits all brings ⊢
    obtain ⟨collects, inRange, suits⟩ := collects_of_accepted fits all
    have member : last ∈ before ++ [last] := List.mem_append_right _ List.mem_cons_self
    have storing := collects.store (fits last member) inRange suits
    have result := collects.add_of_suits (fits last member) inRange suits
    have length : (before ++ [last]).length = before.length + 1 := List.length_append
    rw [outcomes_append, outcomes, outcomes, List.getLast?_concat] at brings
    by_cases more : before.length + 1 < last.count.toNat
    · rw [if_pos more] at result
      rw [outcome_of_ok result] at brings
      cases brings
    · rw [if_neg more] at result
      by_cases covered : ((final add before empty).store last).covered = last.total.toNat
      · rw [if_pos covered] at result
        rw [outcome_of_ok result] at brings
        cases brings
        have complete : last.count.toNat ≤ (before ++ [last]).length := by omega
        exact ⟨List.append_ne_nil_of_right_ne_nil _ (List.cons_ne_nil _ _),
          storing.whole member complete covered, last.set,
          storing.assembled member complete covered⟩
      · rw [if_neg covered] at result
        rw [outcome_of_error result] at brings
        cases brings

/-! ## Other orders -/

/-- Fragments that make up a payload make it up in another order, too, if and only if no
fragment arrives behind data that it falls into; then all are accepted, and else they are
not. -/
theorem assembles_perm (fits : ∀ fragment ∈ fragments, fragment.data.length < 2 ^ 32)
    (assembles : Assembles fragments payload) (perm : others.Perm fragments) :
    ((others.Pairwise fun earlier later => ¬ later.FallsInto earlier) →
      Assembles others payload) ∧
    ((¬ others.Pairwise fun earlier later => ¬ later.FallsInto earlier) →
      accepted add others empty ≠ others) := by
  obtain ⟨nonempty, whole, set, assembled⟩ := assembles.whole fits
  have wholeOthers := whole.perm perm
  constructor
  · intro outside
    have suits := (Fragment.pairwise_suits_iff wholeOthers.fits).mpr ⟨wholeOthers.apart, outside⟩
    obtain ⟨fragment, member⟩ := List.exists_mem_of_ne_nil fragments nonempty
    have memberOthers := perm.mem_iff.mpr member
    obtain ⟨setOthers, found, result, made⟩ :=
      wholeOthers.assembles (List.ne_nil_of_mem memberOthers) suits
    -- Both payloads have the data of the fragments, and nothing but these.
    have sets : setOthers = set :=
      (made.agree fragment memberOthers).symm.trans (assembled.agree fragment member)
    have same : found = payload := by
      apply assembled.payload_eq
      · rw [made.length, assembled.length, sets]
      · exact fun other listed => made.placed other (perm.mem_iff.mpr listed)
    exact same ▸ result
  · intro falls all
    exact falls ((Fragment.pairwise_suits_iff wholeOthers.fits).mp
      (suits_of_accepted wholeOthers.fits all)).2

/-- A fragment without data stands where the first one begins.  It may arrive between the
other two, as long as it arrives before the first. -/
theorem assembles_perm_three :
    Assembles [⟨7, 2, 3, 3, 2, [9]⟩, ⟨7, 1, 3, 3, 0, []⟩, ⟨7, 0, 3, 3, 0, [4, 5]⟩] [4, 5, 9] ∧
    accepted add [⟨7, 0, 3, 3, 0, [4, 5]⟩, ⟨7, 1, 3, 3, 0, []⟩, ⟨7, 2, 3, 3, 2, [9]⟩] empty ≠
      [⟨7, 0, 3, 3, 0, [4, 5]⟩, ⟨7, 1, 3, 3, 0, []⟩, ⟨7, 2, 3, 3, 2, [9]⟩] := by
  have fits : ∀ fragment ∈
      ([⟨7, 1, 3, 3, 0, []⟩, ⟨7, 0, 3, 3, 0, [4, 5]⟩, ⟨7, 2, 3, 3, 2, [9]⟩] : List Fragment),
      fragment.data.length < 2 ^ 32 := by decide
  have assembles : Assembles
      [⟨7, 1, 3, 3, 0, []⟩, ⟨7, 0, 3, 3, 0, [4, 5]⟩, ⟨7, 2, 3, 3, 2, [9]⟩] [4, 5, 9] := ⟨rfl, rfl⟩
  constructor
  · exact (assembles_perm fits assembles (by decide)).1 (by decide)
  · exact (assembles_perm fits assembles (by decide)).2 (by decide)

/-- Two fragments make up a payload; when they arrive the other way round, the one without
data is refused. -/
theorem not_assembles_swap :
    Assembles [⟨7, 1, 2, 2, 0, []⟩, ⟨7, 0, 2, 2, 0, [5, 6]⟩] [5, 6] ∧
    outcomes add [⟨7, 0, 2, 2, 0, [5, 6]⟩, ⟨7, 1, 2, 2, 0, []⟩] empty =
      [.ok none, .error (.fragment 7 (.overlap 0 0))] ∧
    ¬ Assembles [⟨7, 0, 2, 2, 0, [5, 6]⟩, ⟨7, 1, 2, 2, 0, []⟩] [5, 6] := by
  refine ⟨⟨rfl, rfl⟩, rfl, fun assembles => ?_⟩
  have count : 1 = 2 := congrArg List.length assembles.accepted
  cases count

end Assembly

end MatchTape.Packet
