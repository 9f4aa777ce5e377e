import MatchTape.Proofs.Packet.Assembly

/-!
# Splitting a payload

The fragments that a payload is split into divide it: they belong together, share no byte,
leave none out, and each has the bytes of its place.
-/

namespace MatchTape.Packet

/-- The fragments are all there are of one payload, and each has its bytes from there. -/
structure Division (payload : List UInt8) (shares : List Fragment) : Prop where
  nodup : shares.Nodup
  suits : ∀ earlier ∈ shares, ∀ later ∈ shares, earlier ≠ later → earlier.Suits later
  fits : ∀ share ∈ shares, share.data.length < 2 ^ 32
  inRange : ∀ share ∈ shares, share.InRange
  counted : ∀ share ∈ shares, share.count.toNat = shares.length
  measured : ∀ share ∈ shares, share.total.toNat = payload.length
  complete : total (shares.map (·.data.length)) = payload.length
  placed : ∀ share ∈ shares, (payload.drop share.start).take share.data.length = share.data

namespace Fragment

variable {size number : Nat} {payload : List UInt8}

theorem flatten_pieces (size : Nat) (bytes : List UInt8) :
    (pieces size bytes).flatten = bytes := by
  fun_induction pieces size bytes with
  | case1 => rfl
  | case2 byte rest ih =>
      rw [List.flatten_cons, ih, List.cons_append, List.take_append_drop]

theorem lt_length_pieces (positive : 0 < size) (bytes : List UInt8) :
    number < (pieces size bytes).length ↔ number * size < bytes.length := by
  fun_induction pieces size bytes generalizing number with
  | case1 => simp
  | case2 byte rest ih =>
      cases number with
      | zero => simp
      | succ number =>
          rw [List.length_cons, Nat.add_lt_add_iff_right, ih, List.length_drop, List.length_cons,
            Nat.succ_mul]
          omega

/-- Each piece is cut out at the multiple of the size that its number gives. -/
theorem pieces_eq_map (positive : 0 < size) (bytes : List UInt8) :
    pieces size bytes = (List.range (pieces size bytes).length).map fun number =>
      (bytes.drop (number * size)).take size := by
  fun_induction pieces size bytes with
  | case1 => rfl
  | case2 byte rest ih =>
      rw [List.length_cons, List.range_succ_eq_map, List.map_cons, List.map_map, Nat.zero_mul,
        List.drop_zero, List.take_cons positive]
      refine congrArg _ (ih.trans (List.map_congr_left fun number _ => ?_))
      have place : (number + 1) * size = size - 1 + number * size + 1 := by
        rw [Nat.succ_mul]
        omega
      rw [Function.comp_apply, place, List.drop_succ_cons, List.drop_drop]

def shareCount (payload : List UInt8) (size : Nat) : Nat :=
  if payload.isEmpty then 1 else (pieces size payload).length

def share (wrapped : UInt16) (payload : List UInt8) (size number : Nat) : Fragment where
  wrapped
  number := UInt32.ofNat number
  count := UInt32.ofNat (shareCount payload size)
  total := UInt32.ofNat payload.length
  offset := UInt32.ofNat (number * size)
  data := (payload.drop (number * size)).take size

theorem numbered_map (wrapped : UInt16) (count total size : Nat) (data : Nat → List UInt8)
    (first length : Nat) :
    numbered wrapped count total size first ((List.range' first length).map data) =
      (List.range' first length).map fun number =>
        { wrapped, number := UInt32.ofNat number, count := UInt32.ofNat count,
          total := UInt32.ofNat total, offset := UInt32.ofNat (number * size),
          data := data number } := by
  induction length generalizing first with
  | zero => rfl
  | succ length ih =>
      rw [List.range'_succ, List.map_cons, List.map_cons, numbered, ih]

theorem cut_eq_map (positive : 0 < size) (payload : List UInt8) :
    (if payload.isEmpty then [[]] else pieces size payload) =
      (List.range (shareCount payload size)).map fun number =>
        (payload.drop (number * size)).take size := by
  rw [shareCount]
  split
  · next empty =>
      rw [List.isEmpty_iff.mp empty]
      simp
  · exact pieces_eq_map positive payload

theorem split_eq_map (wrapped : UInt16) (payload : List UInt8) (size : Nat) :
    split wrapped payload size = (List.range (shareCount payload (max size 1))).map
      (share wrapped payload (max size 1)) := by
  rw [split, cut_eq_map (Nat.le_max_right size 1), List.range_eq_range', numbered_map,
    List.length_map, List.length_range']
  rfl

/-! ## Numbers and places -/

theorem shareCount_pos (positive : 0 < size) (payload : List UInt8) :
    0 < shareCount payload size := by
  rw [shareCount]
  split
  · exact Nat.one_pos
  · next filled =>
      rw [lt_length_pieces positive, Nat.zero_mul]
      exact List.length_pos_iff.mpr fun empty => filled (List.isEmpty_iff.mpr empty)

theorem shareCount_le (positive : 0 < size) (payload : List UInt8) :
    shareCount payload size ≤ max payload.length 1 := by
  rw [shareCount]
  split
  · exact Nat.le_max_right _ _
  · apply Nat.le_of_not_lt
    intro above
    have inside := (lt_length_pieces positive payload).mp
      (Nat.lt_of_le_of_lt (Nat.le_max_left _ _) above)
    exact absurd inside (Nat.not_lt.mpr (Nat.le_mul_of_pos_right _ positive))

theorem shareCount_lt (positive : 0 < size) (short : payload.length < 2 ^ 32) :
    shareCount payload size < 2 ^ 32 :=
  Nat.lt_of_le_of_lt (shareCount_le positive payload) (Nat.max_lt.mpr ⟨short, by decide⟩)

/-- No share begins behind the payload; that of an empty payload begins at its end. -/
theorem place_le (positive : 0 < size) (counted : number < shareCount payload size) :
    number * size ≤ payload.length := by
  rw [shareCount] at counted
  split at counted
  · have first : number = 0 := by omega
    rw [first, Nat.zero_mul]
    exact Nat.zero_le _
  · exact Nat.le_of_lt ((lt_length_pieces positive payload).mp counted)

theorem total_shares (positive : 0 < size) (wrapped : UInt16) (payload : List UInt8) :
    Packet.total (((List.range (shareCount payload size)).map (share wrapped payload size)).map
      (·.data.length)) = payload.length := by
  have lengths : ((List.range (shareCount payload size)).map (share wrapped payload size)).map
      (·.data.length) =
        (if payload.isEmpty then [[]] else pieces size payload).map List.length := by
    rw [cut_eq_map positive, List.map_map, List.map_map]
    rfl
  rw [lengths, total_eq_sum, ← List.length_flatten]
  split
  · next empty =>
      rw [List.isEmpty_iff.mp empty]
      rfl
  · rw [flatten_pieces]

/-! ## Shares -/

section Share

variable (wrapped : UInt16) (positive : 0 < size) (short : payload.length < 2 ^ 32)
  (counted : number < shareCount payload size)
include positive short

theorem share_count :
    (share wrapped payload size number).count.toNat = shareCount payload size :=
  UInt32.toNat_ofNat_of_lt' (shareCount_lt positive short)

omit positive in
theorem share_total : (share wrapped payload size number).total.toNat = payload.length :=
  UInt32.toNat_ofNat_of_lt' short

include counted

theorem share_number : (share wrapped payload size number).number.toNat = number :=
  UInt32.toNat_ofNat_of_lt' (Nat.lt_trans counted (shareCount_lt positive short))

theorem share_start : (share wrapped payload size number).start = number * size :=
  UInt32.toNat_ofNat_of_lt' (Nat.lt_of_le_of_lt (place_le positive counted) short)

omit short in
theorem share_length :
    number * size + (share wrapped payload size number).data.length ≤ payload.length ∧
      (share wrapped payload size number).data.length ≤ size := by
  have inside := place_le positive counted
  rw [share, List.length_take, List.length_drop]
  omega

theorem share_fits : (share wrapped payload size number).data.length < 2 ^ 32 := by
  have length := share_length wrapped positive counted
  omega

theorem share_inRange : (share wrapped payload size number).InRange := by
  constructor
  · rw [UInt32.lt_iff_toNat_lt, share_number wrapped positive short counted,
      share_count wrapped positive short]
    exact counted
  · have length := share_length wrapped positive counted
    rw [← start, share_start wrapped positive short counted, share_total wrapped short]
    exact length.1

theorem share_placed :
    (payload.drop (share wrapped payload size number).start).take
        (share wrapped payload size number).data.length =
      (share wrapped payload size number).data := by
  rw [share_start wrapped positive short counted, share, List.length_take, ← List.take_eq_take_min]

theorem share_suits {other : Nat} (otherCounted : other < shareCount payload size)
    (different : number ≠ other) :
    (share wrapped payload size number).Suits (share wrapped payload size other) := by
  have start := share_start wrapped positive short counted
  have otherStart := share_start wrapped positive short otherCounted
  have length := share_length wrapped positive counted
  have otherLength := share_length wrapped positive otherCounted
  refine ⟨rfl, ?_, fun _ => ?_⟩
  · intro same
    rw [← UInt32.toNat_inj, share_number wrapped positive short counted,
      share_number wrapped positive short otherCounted] at same
    exact different same
  · -- The place behind a share is at most the place of the next one.
    rw [stop_of_fits (share_fits wrapped positive short otherCounted), start, otherStart]
    rcases Nat.lt_or_gt_of_ne different with before | behind
    · have next : (number + 1) * size ≤ other * size := Nat.mul_le_mul_right size before
      rw [Nat.succ_mul] at next
      exact .inl (by dsimp only; omega)
    · have next : (other + 1) * size ≤ number * size := Nat.mul_le_mul_right size behind
      rw [Nat.succ_mul] at next
      exact .inr (by dsimp only; omega)

end Share

theorem length_le_of_mem_split {wrapped : UInt16} {fragment : Fragment}
    (member : fragment ∈ split wrapped payload size) : fragment.data.length ≤ max 1 size := by
  rw [split_eq_map] at member
  obtain ⟨number, counted, rfl⟩ := List.mem_map.mp member
  rw [Nat.max_comm]
  exact List.length_take_le _ _

theorem exists_mem_split (wrapped : UInt16) (payload : List UInt8) (size : Nat) :
    ∃ fragment, fragment ∈ split wrapped payload size := by
  have first := shareCount_pos (Nat.le_max_right size 1) payload
  rw [split_eq_map]
  exact ⟨_, List.mem_map_of_mem (List.mem_range.mpr first)⟩

/-- A payload is divided into the fragments it is split into. -/
theorem division_split (wrapped : UInt16) (short : payload.length < 2 ^ 32) (size : Nat) :
    Division payload (split wrapped payload size) := by
  have positive : 0 < max size 1 := Nat.le_max_right size 1
  rw [split_eq_map]
  generalize max size 1 = size at positive
  constructor
  case complete => exact total_shares positive wrapped payload
  case nodup =>
    rw [List.Nodup, List.pairwise_map]
    refine List.nodup_range.imp_of_mem ?_
    intro number other listed otherListed different same
    exact (share_suits wrapped positive short (List.mem_range.mp listed)
      (List.mem_range.mp otherListed) different).number (congrArg Fragment.number same)
  case suits =>
    simp only [List.forall_mem_map, List.mem_range]
    intro number counted other otherCounted different
    exact share_suits wrapped positive short counted otherCounted fun same =>
      different (congrArg _ same)
  all_goals
    simp only [List.forall_mem_map, List.mem_range]
    intro number counted
  case fits => exact share_fits wrapped positive short counted
  case inRange => exact share_inRange wrapped positive short counted
  case counted =>
    rw [share_count wrapped positive short, List.length_map, List.length_range]
  case measured => exact share_total wrapped short
  case placed => exact share_placed wrapped positive short counted

end Fragment

end MatchTape.Packet
