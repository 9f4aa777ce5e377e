import MatchTape.Proofs.Packet.Splitting

/-!
# Arrivals of a split payload

An assembly to which the fragments of a split payload arrive stores each when it arrives
first, refuses it whenever it arrives again, and puts out the payload with the last of them,
whatever their order.
-/

namespace MatchTape.Packet

namespace Assembly

open Attempts

variable {assembly : Assembly} {stored arrived shares : List Fragment} {share : Fragment}
  {set : FragmentSet} {payload other : List UInt8}

/-- The fragments of a payload leave no other payload of its length that has their data at
their places. -/
theorem Assembled.payload_eq (assembled : Assembled set stored payload)
    (length : other.length = payload.length)
    (placed : ∀ fragment ∈ stored,
      (other.drop fragment.start).take fragment.data.length = fragment.data) :
    other = payload := by
  apply List.ext_getElem?
  intro place
  -- A place in the payload lies in a fragment, whose data both have there.
  rcases Nat.lt_or_ge place payload.length with below | beyond
  · obtain ⟨fragment, member, begins, ends⟩ :=
      assembled.covers place (assembled.length ▸ below)
    have inside : place - fragment.start < fragment.data.length := by
      have sent : fragment.length.toNat ≤ fragment.data.length := by
        rw [Fragment.length, UInt32.toNat_ofNat']
        exact Nat.mod_le _ _
      rw [Fragment.stop] at ends
      rw [Fragment.start] at begins ⊢
      omega
    have same := congrArg (·[place - fragment.start]?)
      ((placed fragment member).trans (assembled.placed fragment member).symm)
    simp only [List.getElem?_take_of_lt inside, List.getElem?_drop, Nat.add_sub_cancel' begins]
      at same
    exact same
  · rw [List.getElem?_eq_none beyond, List.getElem?_eq_none (length ▸ beyond)]

namespace Collects

theorem nodup (collects : assembly.Collects stored) : stored.Nodup :=
  collects.suits.imp fun suits same => suits.number (congrArg Fragment.number same)

theorem add_of_mem (collects : assembly.Collects stored) (member : share ∈ stored) :
    ∃ fault, add share assembly = .error fault assembly := by
  cases wrong : assembly.objection? share with
  | some cause => exact ⟨_, add_of_objection wrong⟩
  | none =>
      have suits := ((collects.objection?_eq_none_iff (collects.fits share member)).mp wrong).2
      exact absurd rfl (suits share member).number

end Collects

end Assembly

namespace Division

open Assembly Attempts

variable {assembly : Assembly} {stored arrived shares : List Fragment} {share : Fragment}
  {payload : List UInt8}

/-- A share that has not been stored is stored, and completes the payload if it is the last. -/
theorem add (division : Division payload shares) (collects : assembly.Collects stored)
    (within : stored ⊆ shares) (member : share ∈ shares) (fresh : share ∉ stored) :
    (assembly.store share).Collects (stored ++ [share]) ∧
    Assembly.add share assembly =
      if stored.length + 1 < shares.length then .ok none (assembly.store share)
      else if (assembly.store share).covered = payload.length then
        .ok (some (assembly.store share).payload)
          { assembly.store share with parts := [], complete := true }
      else
        .error (.fragment share.wrapped (.uncovered share.count (assembly.store share).covered
          share.total)) (assembly.store share) := by
  have fits := division.fits share member
  have inRange := division.inRange share member
  have suits : ∀ earlier ∈ stored, earlier.Suits share := by
    intro earlier listed
    apply division.suits earlier (within listed) share member
    rintro rfl
    exact fresh listed
  refine ⟨collects.store fits inRange suits, ?_⟩
  rw [collects.add_of_suits fits inRange suits, division.counted share member,
    division.measured share member]

theorem add_before_last (division : Division payload shares) (collects : assembly.Collects stored)
    (within : stored ⊆ shares) (member : share ∈ shares) (fresh : share ∉ stored)
    {other : Fragment} (awaited : other ∈ shares) (missing : other ∉ stored ++ [share]) :
    Assembly.add share assembly = .ok none (assembly.store share) := by
  obtain ⟨storing, result⟩ := division.add collects within member fresh
  have room : (other :: (stored ++ [share])).Subperm shares := by
    apply List.Nodup.subperm
    · exact List.nodup_cons.mpr ⟨missing, storing.nodup⟩
    · exact List.cons_subset.mpr ⟨awaited,
        List.append_subset.mpr ⟨within, List.cons_subset.mpr ⟨member, List.nil_subset _⟩⟩⟩
  have more : stored.length + 1 < shares.length := by
    have length := room.length_le
    rwa [List.length_cons, List.length_append, List.length_singleton] at length
  rw [result, if_pos more]

/-- The share with which all are stored brings out the payload. -/
theorem add_last (division : Division payload shares) (collects : assembly.Collects stored)
    (within : stored ⊆ shares) (member : share ∈ shares) (fresh : share ∉ stored)
    (all : ∀ other ∈ shares, other ∈ stored ++ [share]) :
    ∃ after, Assembly.add share assembly = .ok (some payload) after ∧ after.Spent := by
  obtain ⟨storing, result⟩ := division.add collects within member fresh
  have every : (stored ++ [share]).Perm shares := by
    apply (List.perm_ext_iff_of_nodup storing.nodup division.nodup).mpr
    intro other
    constructor
    · intro listed
      rcases List.mem_append.mp listed with earlier | last
      · exact within earlier
      · exact List.mem_singleton.mp last ▸ member
    · exact all other
  have enough : stored.length + 1 = shares.length := by
    rw [← every.length_eq, List.length_append, List.length_singleton]
  have covered : (assembly.store share).covered = payload.length := by
    rw [storing.covered_eq, total_eq_sum, (every.map _).sum_nat, ← total_eq_sum,
      division.complete]
  have last : share ∈ stored ++ [share] := List.mem_append_right _ List.mem_cons_self
  have assembled : Assembled share.set (stored ++ [share]) (assembly.store share).payload := by
    apply storing.assembled last
    · rw [division.counted share member, ← every.length_eq]
    · rw [division.measured share member, covered]
  have whole : payload = (assembly.store share).payload := by
    apply assembled.payload_eq
    · rw [assembled.length, ← division.measured share member]
      rfl
    · intro fragment listed
      exact division.placed fragment (every.subset listed)
  rw [if_neg (by omega), if_pos covered, ← whole] at result
  exact ⟨_, result, spent_of_complete rfl⟩

end Division

/-! ## Arrivals -/

namespace Assembly

open Attempts

variable {assembly : Assembly} {stored arrived shares : List Fragment} {share other : Fragment}
  {payload : List UInt8}

/-- Shares that have arrived are stored as long as one is missing; when all have arrived,
the assembly refuses whatever comes. -/
inductive Gathers (assembly : Assembly) (shares arrived : List Fragment) : Prop where
  | waits (stored : List Fragment) (collects : assembly.Collects stored)
      (within : stored ⊆ shares) (same : ∀ share, share ∈ stored ↔ share ∈ arrived)
      (missing : ∃ share ∈ shares, share ∉ arrived)
  | done (all : ∀ share ∈ shares, share ∈ arrived) (spent : assembly.Spent)

theorem gathers_empty (member : share ∈ shares) : empty.Gathers shares [] :=
  .waits [] collects_empty (List.nil_subset _) (fun _ => Iff.rfl)
    ⟨share, member, List.not_mem_nil⟩

namespace Gathers

theorem add_again (gathers : assembly.Gathers shares arrived) (again : share ∈ arrived) :
    ∃ fault, add share assembly = .error fault assembly := by
  cases gathers with
  | waits stored collects within same missing => exact collects.add_of_mem ((same share).mpr again)
  | done all spent => exact spent share

theorem again (gathers : assembly.Gathers shares arrived) (again : share ∈ arrived) :
    assembly.Gathers shares (arrived ++ [share]) := by
  have same : ∀ other, other ∈ arrived ↔ other ∈ arrived ++ [share] := by
    intro other
    rw [List.mem_append, List.mem_singleton]
    constructor
    · exact .inl
    · rintro (earlier | rfl)
      · exact earlier
      · exact again
  cases gathers with
  | waits stored collects within stores missing =>
      obtain ⟨other, awaited, absent⟩ := missing
      exact .waits stored collects within (fun other => (stores other).trans (same other))
        ⟨other, awaited, fun listed => absent ((same other).mpr listed)⟩
  | done all spent => exact .done (fun other member => (same other).mp (all other member)) spent

variable (division : Division payload shares)
include division

theorem add_more (gathers : assembly.Gathers shares arrived) (member : share ∈ shares)
    (fresh : share ∉ arrived) (awaited : other ∈ shares) (missing : other ∉ arrived ++ [share]) :
    ∃ after, add share assembly = .ok none after ∧ after.Gathers shares (arrived ++ [share]) := by
  cases gathers with
  | done all spent => exact absurd (all share member) fresh
  | waits stored collects within same _ =>
      have new : share ∉ stored := fun listed => fresh ((same share).mp listed)
      have both : ∀ other, other ∈ stored ++ [share] ↔ other ∈ arrived ++ [share] := by
        intro other
        rw [List.mem_append, List.mem_append, same]
      have absent : other ∉ stored ++ [share] := fun listed => missing ((both other).mp listed)
      have storing := (division.add collects within member new).1
      refine ⟨_, division.add_before_last collects within member new awaited absent, ?_⟩
      exact .waits _ storing
        (List.append_subset.mpr ⟨within, List.cons_subset.mpr ⟨member, List.nil_subset _⟩⟩) both
        ⟨other, awaited, missing⟩

/-- The share with which all have arrived completes the payload. -/
theorem add_last (gathers : assembly.Gathers shares arrived) (member : share ∈ shares)
    (fresh : share ∉ arrived) (all : ∀ other ∈ shares, other ∈ arrived ++ [share]) :
    ∃ after, add share assembly = .ok (some payload) after ∧
      after.Gathers shares (arrived ++ [share]) := by
  cases gathers with
  | done all spent => exact absurd (all share member) fresh
  | waits stored collects within same _ =>
      have new : share ∉ stored := fun listed => fresh ((same share).mp listed)
      have every : ∀ other ∈ shares, other ∈ stored ++ [share] := by
        intro other awaited
        rw [List.mem_append, same, ← List.mem_append]
        exact all other awaited
      obtain ⟨after, result, spent⟩ := division.add_last collects within member new every
      exact ⟨after, result, .done all spent⟩

theorem left (gathers : assembly.Gathers shares arrived) (member : share ∈ shares) :
    (Attempts.left (add share) assembly).Gathers shares (arrived ++ [share]) := by
  by_cases again : share ∈ arrived
  · obtain ⟨fault, result⟩ := gathers.add_again again
    rw [left_of_error result]
    exact gathers.again again
  · by_cases missing : ∃ other ∈ shares, other ∉ arrived ++ [share]
    · obtain ⟨other, awaited, absent⟩ := missing
      obtain ⟨after, result, gathers⟩ := gathers.add_more division member again awaited absent
      rwa [left_of_ok result]
    · have all : ∀ other ∈ shares, other ∈ arrived ++ [share] := fun other awaited =>
        Decidable.byContradiction fun absent => missing ⟨other, awaited, absent⟩
      obtain ⟨after, result, gathers⟩ := gathers.add_last division member again all
      rwa [left_of_ok result]

theorem final (gathers : assembly.Gathers shares arrived) {arrivals : List Fragment}
    (within : arrivals ⊆ shares) :
    (Attempts.final add arrivals assembly).Gathers shares (arrived ++ arrivals) := by
  induction arrivals generalizing assembly arrived with
  | nil => rwa [List.append_nil]
  | cons share arrivals ih =>
      obtain ⟨member, others⟩ := List.cons_subset.mp within
      rw [Attempts.final, List.append_cons]
      exact ih (gathers.left division member) others

omit division in
theorem spent (gathers : assembly.Gathers shares arrived)
    (all : ∀ share ∈ shares, share ∈ arrived) : assembly.Spent := by
  cases gathers with
  | done _ spent => exact spent
  | waits stored collects within same missing =>
      obtain ⟨other, awaited, absent⟩ := missing
      exact absurd (all other awaited) absent

/-- While a share is missing, the arrival of all of them makes the payload come out once. -/
theorem countP_completes (gathers : assembly.Gathers shares arrived) {arrivals : List Fragment}
    (within : arrivals ⊆ shares) (missing : ∃ share ∈ shares, share ∉ arrived)
    (all : ∀ share ∈ shares, share ∈ arrived ++ arrivals) :
    (outcomes add arrivals assembly).countP completes = 1 := by
  induction arrivals generalizing assembly arrived with
  | nil =>
      obtain ⟨other, awaited, absent⟩ := missing
      rw [List.append_nil] at all
      exact absurd (all other awaited) absent
  | cons share arrivals ih =>
      obtain ⟨member, others⟩ := List.cons_subset.mp within
      have next := gathers.left division member
      rw [List.append_cons] at all
      rw [outcomes, List.countP_cons]
      -- Behind the share with which all have arrived nothing comes out any more.
      by_cases last : ∀ other ∈ shares, other ∈ arrived ++ [share]
      · have fresh : share ∉ arrived := by
          intro again
          obtain ⟨other, awaited, absent⟩ := missing
          rcases List.mem_append.mp (last other awaited) with earlier | same
          · exact absent earlier
          · exact absent (List.mem_singleton.mp same ▸ again)
        obtain ⟨after, result, -⟩ := gathers.add_last division member fresh last
        rw [outcome_of_ok result, (next.spent last).countP_completes]
        rfl
      · have missing : ∃ other ∈ shares, other ∉ arrived ++ [share] := by
          simpa using last
        rw [ih next others missing all]
        by_cases again : share ∈ arrived
        · obtain ⟨fault, result⟩ := gathers.add_again again
          rw [outcome_of_error result]
          rfl
        · obtain ⟨other, awaited, absent⟩ := missing
          obtain ⟨after, result, -⟩ := gathers.add_more division member again awaited absent
          rw [outcome_of_ok result]
          rfl

end Gathers

end Assembly

namespace Fragment

open Assembly Attempts

/-- Each fragment of a split payload is read back from its packet.  When all of them arrive,
in any order and any number of times, each is accepted when it arrives first and refused
without a trace afterwards; the last that arrives first brings out the payload, and nothing
else does. -/
theorem split_assembles (header : Header) (wrapped : UInt16) (payload : List UInt8) (size : Nat)
    (short : payload.length < 2 ^ 32) :
    (∀ share ∈ split wrapped payload size,
      share.data.length ≤ max 1 size ∧
      Command.decode (Command.bytes ⟨header, .wrapper share⟩) =
        .ok (⟨header.normalized .wrapper, .wrapper share⟩,
          (Command.bytes ⟨header, .wrapper share⟩).length)) ∧
    ∀ arrivals, (∀ share, share ∈ arrivals ↔ share ∈ split wrapped payload size) →
      (outcomes add arrivals empty).countP completes = 1 ∧
      ∀ before share after, arrivals = before ++ share :: after →
        (share ∈ before → ∃ fault, add share (Attempts.final add before empty) =
          .error fault (Attempts.final add before empty)) ∧
        (share ∉ before → (∃ other ∈ split wrapped payload size, other ∉ before ++ [share]) →
          ∃ next, add share (Attempts.final add before empty) = .ok none next) ∧
        (share ∉ before → (∀ other ∈ split wrapped payload size, other ∈ before ++ [share]) →
          ∃ next, add share (Attempts.final add before empty) = .ok (some payload) next) := by
  have division := division_split wrapped short size
  refine ⟨fun share member => ⟨length_le_of_mem_split member, ?_⟩, fun arrivals all => ?_⟩
  · have reads : Command.read.Reads (Command.bytes ⟨header, .wrapper share⟩)
        ⟨header.normalized .wrapper, .wrapper share⟩ :=
      Command.read_bytes (division.fits share member) (division.inRange share member)
    have decoded := Command.decode_of_reads reads []
    rwa [List.append_nil] at decoded
  · have within : arrivals ⊆ split wrapped payload size := fun share => (all share).mp
    constructor
    · obtain ⟨share, member⟩ := exists_mem_split wrapped payload size
      exact (gathers_empty member).countP_completes division within
        ⟨share, member, List.not_mem_nil⟩ fun other => (all other).mpr
    · rintro before share after rfl
      obtain ⟨early, late⟩ := List.append_subset.mp within
      have member : share ∈ split wrapped payload size := late List.mem_cons_self
      have gathers := (gathers_empty member).final division early
      refine ⟨gathers.add_again, ?_, ?_⟩
      · rintro fresh ⟨other, awaited, missing⟩
        obtain ⟨next, result, -⟩ := gathers.add_more division member fresh awaited missing
        exact ⟨next, result⟩
      · intro fresh every
        obtain ⟨next, result, -⟩ := gathers.add_last division member fresh every
        exact ⟨next, result⟩

/-- Five bytes make three fragments.  They arrive from the last to the first, and the last
one once more: it is refused, and the first completes the payload. -/
theorem split_assembles_three :
    (∃ fault, add ⟨7, 2, 3, 5, 4, [5]⟩
      (Attempts.final add [⟨7, 2, 3, 5, 4, [5]⟩, ⟨7, 1, 3, 5, 2, [3, 4]⟩] empty) =
        .error fault (Attempts.final add [⟨7, 2, 3, 5, 4, [5]⟩, ⟨7, 1, 3, 5, 2, [3, 4]⟩] empty)) ∧
    ∃ next, add ⟨7, 0, 3, 5, 0, [1, 2]⟩
      (Attempts.final add [⟨7, 2, 3, 5, 4, [5]⟩, ⟨7, 1, 3, 5, 2, [3, 4]⟩, ⟨7, 2, 3, 5, 4, [5]⟩]
        empty) = .ok (some [1, 2, 3, 4, 5]) next := by
  have short : [(1 : UInt8), 2, 3, 4, 5].length < 2 ^ 32 := by decide
  obtain ⟨-, assembles⟩ := split_assembles {} 7 [1, 2, 3, 4, 5] 2 short
  have shares : split 7 [1, 2, 3, 4, 5] 2 =
      [⟨7, 0, 3, 5, 0, [1, 2]⟩, ⟨7, 1, 3, 5, 2, [3, 4]⟩, ⟨7, 2, 3, 5, 4, [5]⟩] := by
    simp [split, pieces, numbered]
  rw [shares] at assembles
  have all : ∀ share : Fragment,
      share ∈ ([⟨7, 2, 3, 5, 4, [5]⟩, ⟨7, 1, 3, 5, 2, [3, 4]⟩, ⟨7, 2, 3, 5, 4, [5]⟩,
        ⟨7, 0, 3, 5, 0, [1, 2]⟩] : List Fragment) ↔
      share ∈ ([⟨7, 0, 3, 5, 0, [1, 2]⟩, ⟨7, 1, 3, 5, 2, [3, 4]⟩, ⟨7, 2, 3, 5, 4, [5]⟩] :
        List Fragment) := by
    intro share
    simp only [List.mem_cons, List.not_mem_nil, or_false]
    grind
  obtain ⟨-, arrival⟩ := assembles _ all
  constructor
  · exact (arrival [⟨7, 2, 3, 5, 4, [5]⟩, ⟨7, 1, 3, 5, 2, [3, 4]⟩] ⟨7, 2, 3, 5, 4, [5]⟩
      [⟨7, 0, 3, 5, 0, [1, 2]⟩] rfl).1 (by decide)
  · exact (arrival [⟨7, 2, 3, 5, 4, [5]⟩, ⟨7, 1, 3, 5, 2, [3, 4]⟩, ⟨7, 2, 3, 5, 4, [5]⟩]
      ⟨7, 0, 3, 5, 0, [1, 2]⟩ [] rfl).2.2 (by decide) (by decide)

end Fragment

end MatchTape.Packet
