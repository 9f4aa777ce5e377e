import MatchTape.Proofs.Record.Entry
import MatchTape.Record.MatchSheet

/-!
# Sheets survive their records

A sheet is read back from its record as it was, its seats in their order, as long
as the record is short enough for the lengths in it to be told.
-/

namespace MatchTape.Record

open Entry

/-! ## Seats -/

namespace Seat

theorem signedNumber_toInt32 (value : Int32) :
    (signedNumber value).toUInt32.toInt32 = value := by
  apply Int32.toBitVec_inj.mp
  simp only [signedNumber, UInt32.toBitVec_toInt32, UInt64.toBitVec_toUInt32,
    Int64.toBitVec_toUInt64, Int32.toBitVec_toInt64]
  ext i inside
  simp only [BitVec.getElem_setWidth, BitVec.getLsbD_signExtend, inside, if_true,
    BitVec.getLsbD_eq_getElem, Bool.and_eq_right_iff_imp, decide_eq_true_eq]
  omega

theorem signedNumber_eq_zero {value : Int32} (zero : signedNumber value = 0) : value = 0 := by
  rw [← signedNumber_toInt32 value, zero]
  rfl

theorem readable_entries {seat : Seat} (short : (Text.utf8 seat.player).length < 2 ^ 64) :
    ∀ entry ∈ seat.entries, entry.Readable := by
  intro entry member
  simp only [entries, List.mem_append] at member
  rcases member with (member | member) | member
  · exact readable_ofNumber (by decide) _ entry member
  · exact readable_ofBlock (by decide) short entry member
  · exact readable_ofNumber (by decide) _ entry member

theorem length_player_le (seat : Seat) :
    (Text.utf8 seat.player).length ≤ seat.bytes.length := by
  have player := length_le_ofBlock 2 (Text.utf8 seat.player)
  simp only [bytes, entries, ofText, List.flatMap_append, List.length_append]
  omega

theorem length_bytes_le (seat : Seat) :
    seat.bytes.length ≤ 60 + (Text.utf8 seat.player).length := by
  have slot := length_ofNumber_le 1 seat.slot.toUInt64
  have player := length_ofBlock_le 2 (Text.utf8 seat.player)
  have team := length_ofNumber_le 3 (signedNumber seat.team)
  simp only [bytes, entries, ofText, List.flatMap_append, List.length_append]
  omega

theorem foldlM_entries (seat : Seat) : seat.entries.foldlM absorb {} = some seat := by
  obtain ⟨slot, player, team⟩ := seat
  have withSlot : (ofNumber 1 slot.toUInt64).foldlM absorb {} = some { slot } :=
    foldlM_ofNumber32 (by simp [absorb, number?]) (by simp +contextual)
  have withPlayer : (ofText 2 player).foldlM absorb { slot } = some { slot, player } :=
    foldlM_ofText (by simp [absorb, text?]) (by simp +contextual)
  have withTeam : (ofNumber 3 (signedNumber team)).foldlM absorb { slot, player } =
      some { slot, player, team } :=
    foldlM_ofNumber (by simp [absorb, number?, signedNumber_toInt32])
      fun zero => by rw [signedNumber_eq_zero zero]
  simp only [entries, List.foldlM_append, Option.bind_eq_bind, Option.bind_some, withSlot,
    withPlayer, withTeam]

theorem ofBytes?_bytes {seat : Seat} (short : (Text.utf8 seat.player).length < 2 ^ 64) :
    ofBytes? seat.bytes = some seat := by
  rw [ofBytes?, bytes, list?_bytes (by decide) (readable_entries short)]
  exact foldlM_entries seat

end Seat

/-! ## Sheets -/

namespace MatchSheet

/-- The number of frames stands in one place among the bytes of a sheet. -/
theorem bytes_frameCount (sheet : MatchSheet) : ∃ front behind, ∀ frameCount : UInt32,
    { sheet with frameCount }.bytes =
      front ++ ((ofNumber 4 frameCount.toUInt64).flatMap Entry.bytes ++ behind) := by
  refine ⟨(ofText 1 sheet.map ++ ofText 2 sheet.host ++
      ofNumber 3 sheet.seed.toUInt64).flatMap Entry.bytes,
    (sheet.roster.map (fun seat => (⟨seatNumber, .block seat.bytes⟩ : Entry)) ++
      ofText 6 sheet.build).flatMap Entry.bytes, fun frameCount => ?_⟩
  simp only [bytes, entries, List.flatMap_append, List.append_assoc]

structure Short (sheet : MatchSheet) : Prop where
  map : (Text.utf8 sheet.map).length < 2 ^ 64
  host : (Text.utf8 sheet.host).length < 2 ^ 64
  seats : ∀ seat ∈ sheet.roster, seat.bytes.length < 2 ^ 64
  build : (Text.utf8 sheet.build).length < 2 ^ 64

/-- Everything in a record is shorter than the record. -/
theorem short_of_length {sheet : MatchSheet} (size : sheet.bytes.length < 2 ^ 64) :
    sheet.Short := by
  have map := length_le_ofBlock 1 (Text.utf8 sheet.map)
  have host := length_le_ofBlock 2 (Text.utf8 sheet.host)
  have build := length_le_ofBlock 6 (Text.utf8 sheet.build)
  simp only [bytes, entries, ofText, List.flatMap_append, List.length_append] at size
  refine ⟨by omega, by omega, fun seat member => ?_, by omega⟩
  obtain ⟨front, back, roster⟩ := List.append_of_mem member
  rw [roster] at size
  simp only [List.map_append, List.map_cons, List.flatMap_append, List.flatMap_cons,
    List.length_append, Entry.bytes, Payload.bytes] at size
  omega

theorem readable_entries {sheet : MatchSheet} (short : sheet.Short) :
    ∀ entry ∈ sheet.entries, entry.Readable := by
  intro entry member
  simp only [entries, List.mem_append] at member
  rcases member with ((((member | member) | member) | member) | member) | member
  · exact readable_ofBlock (by decide) short.map entry member
  · exact readable_ofBlock (by decide) short.host entry member
  · exact readable_ofNumber (by decide) _ entry member
  · exact readable_ofNumber (by decide) _ entry member
  · obtain ⟨seat, seated, rfl⟩ := List.mem_map.mp member
    exact ⟨by simp [seatNumber], short.seats seat seated⟩
  · exact readable_ofBlock (by decide) short.build entry member

theorem filter_entries (sheet : MatchSheet) :
    sheet.entries.filter (·.number == seatNumber) =
      sheet.roster.map fun seat => ⟨seatNumber, .block seat.bytes⟩ := by
  have seats : (sheet.roster.map fun seat => (⟨seatNumber, .block seat.bytes⟩ : Entry)).filter
      (·.number == seatNumber) =
        sheet.roster.map fun seat => ⟨seatNumber, .block seat.bytes⟩ := by
    apply List.filter_eq_self.mpr
    intro entry member
    obtain ⟨seat, _, rfl⟩ := List.mem_map.mp member
    exact beq_self_eq_true _
  have otherText : ∀ number ≠ seatNumber, ∀ text,
      (ofText number text).filter (·.number == seatNumber) = [] :=
    fun _ other text => filter_ofBlock other (Text.utf8 text)
  rw [entries]
  simp only [List.filter_append, seats]
  rw [otherText 1 (by decide), otherText 2 (by decide), filter_ofNumber (by decide),
    filter_ofNumber (by decide), otherText 6 (by decide)]
  simp

theorem mapM_seats {roster : List Seat}
    (short : ∀ seat ∈ roster, (Text.utf8 seat.player).length < 2 ^ 64) :
    (roster.map fun seat => (⟨seatNumber, .block seat.bytes⟩ : Entry)).mapM seat? =
      some roster := by
  induction roster with
  | nil => rfl
  | cons seat roster ih =>
      have one : seat? ⟨seatNumber, .block seat.bytes⟩ = some seat :=
        Seat.ofBytes?_bytes (short seat List.mem_cons_self)
      have others := ih fun other member => short other (List.mem_cons_of_mem _ member)
      rw [List.map_cons, List.mapM_cons, one, others]
      rfl

/-- Seats are passed over when the other entries are taken over. -/
theorem foldlM_seats (sheet : MatchSheet) (roster : List Seat) :
    (roster.map fun seat => (⟨seatNumber, .block seat.bytes⟩ : Entry)).foldlM absorb sheet =
      some sheet := by
  induction roster with
  | nil => rfl
  | cons seat roster ih => exact ih

theorem foldlM_entries (sheet : MatchSheet) :
    sheet.entries.foldlM absorb {} = some { sheet with roster := [] } := by
  obtain ⟨map, host, seed, frameCount, roster, build⟩ := sheet
  have withMap : (ofText 1 map).foldlM absorb {} = some { map } :=
    foldlM_ofText (by simp [absorb, text?]) (by simp +contextual)
  have withHost : (ofText 2 host).foldlM absorb { map } = some { map, host } :=
    foldlM_ofText (by simp [absorb, text?]) (by simp +contextual)
  have withSeed : (ofNumber 3 seed.toUInt64).foldlM absorb { map, host } =
      some { map, host, seed } :=
    foldlM_ofNumber32 (by simp [absorb, number?]) (by simp +contextual)
  have withFrameCount : (ofNumber 4 frameCount.toUInt64).foldlM absorb { map, host, seed } =
      some { map, host, seed, frameCount } :=
    foldlM_ofNumber32 (by simp [absorb, number?]) (by simp +contextual)
  have withBuild : (ofText 6 build).foldlM absorb { map, host, seed, frameCount } =
      some { map, host, seed, frameCount, build } :=
    foldlM_ofText (by simp [absorb, text?]) (by simp +contextual)
  simp only [entries, List.foldlM_append, Option.bind_eq_bind, Option.bind_some, withMap,
    withHost, withSeed, withFrameCount, foldlM_seats, withBuild]

/-- A sheet is read back from its record. -/
theorem ofBytes?_of_short {sheet : MatchSheet} (short : sheet.Short) :
    ofBytes? sheet.bytes = some sheet := by
  have players : ∀ seat ∈ sheet.roster, (Text.utf8 seat.player).length < 2 ^ 64 :=
    fun seat member => Nat.lt_of_le_of_lt seat.length_player_le (short.seats seat member)
  rw [ofBytes?, bytes, list?_bytes (by decide) (readable_entries short)]
  simp only [Option.bind_eq_bind, Option.bind_some, filter_entries, mapM_seats players,
    foldlM_entries]
  rfl

theorem ofBytes?_bytes {sheet : MatchSheet} (size : sheet.bytes.length < 2 ^ 64) :
    ofBytes? sheet.bytes = some sheet :=
  ofBytes?_of_short (short_of_length size)

end MatchSheet

end MatchTape.Record
