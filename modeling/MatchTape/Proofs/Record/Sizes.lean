import MatchTape.Digest
import MatchTape.Proofs.Bytes
import MatchTape.Record.MatchSheet

/-!
# How long texts are

Every block in a record is a part of its bytes, so the texts of a sheet are no longer
than the record that they were read from.  A digest is as long as any other.
-/

namespace MatchTape.Record

theorem Varint.length_rest_le {room value : Nat} {input rest : List UInt8}
    (found : readWithin room input = some (value, rest)) : rest.length ≤ input.length := by
  induction room generalizing input value with
  | zero => cases found
  | succ room ih =>
      cases input with
      | nil => cases found
      | cons byte input =>
          rw [readWithin] at found
          split at found
          · split at found
            · cases found
            · cases found
              exact Nat.le_succ _
          · obtain ⟨⟨high, left⟩, read, same⟩ := Option.map_eq_some_iff.mp found
            cases same
            exact Nat.le_succ_of_le (ih read)

namespace Entry

/-- The payload is no block of more than this many bytes. -/
def Bounded (size : Nat) (payload : Payload) : Prop :=
  ∀ data, payload = .block data → data.length ≤ size

theorem takeExactly_lengths {count : Nat} {input data rest : List UInt8}
    (found : takeExactly count input = some (data, rest)) :
    data.length ≤ input.length ∧ rest.length ≤ input.length := by
  simp only [takeExactly] at found
  split at found
  · cases found
    exact ⟨List.length_take_le' count input, by rw [List.length_drop]; exact Nat.sub_le _ _⟩
  · cases found

theorem readKey_length {input rest : List UInt8} {number form : Nat}
    (found : readKey input = some (number, form, rest)) : rest.length ≤ input.length := by
  unfold readKey at found
  obtain ⟨⟨key, left⟩, read, taken⟩ := Option.bind_eq_some_iff.mp found
  simp only at taken
  split at taken
  · cases taken
  · cases taken
    exact Varint.length_rest_le read

theorem readPayload_lengths {form : Nat} {input rest : List UInt8} {payload : Payload}
    (found : readPayload form input = some (payload, rest)) :
    Bounded input.length payload ∧ rest.length ≤ input.length := by
  unfold readPayload at found
  split at found
  · obtain ⟨⟨value, left⟩, read, same⟩ := Option.bind_eq_some_iff.mp found
    cases same
    exact ⟨fun _ other => (nomatch other), Varint.length_rest_le read⟩
  · obtain ⟨⟨data, left⟩, read, same⟩ := Option.bind_eq_some_iff.mp found
    cases same
    exact ⟨fun _ other => (nomatch other), (takeExactly_lengths read).2⟩
  · obtain ⟨⟨length, behind⟩, read, more⟩ := Option.bind_eq_some_iff.mp found
    obtain ⟨⟨data, left⟩, taken, same⟩ := Option.bind_eq_some_iff.mp more
    cases same
    have lengths := takeExactly_lengths taken
    have shorter := Varint.length_rest_le read
    refine ⟨fun found same => ?_, Nat.le_trans lengths.2 shorter⟩
    cases same
    exact Nat.le_trans lengths.1 shorter
  · obtain ⟨⟨data, left⟩, read, same⟩ := Option.bind_eq_some_iff.mp found
    cases same
    exact ⟨fun _ other => (nomatch other), (takeExactly_lengths read).2⟩
  · cases found

theorem Bounded.mono {small large : Nat} {payload : Payload} (bounded : Bounded small payload)
    (le : small ≤ large) : Bounded large payload :=
  fun data same => Nat.le_trans (bounded data same) le

theorem bounded_of_kept {size : Nat} {first : Entry} {others entries : List Entry} {keep : Bool}
    (bounded : Bounded size first.payload)
    (boundedOthers : ∀ entry ∈ others, Bounded size entry.payload)
    (kept : (if keep = true then pure (first :: others) else pure others) = some entries) :
    ∀ entry ∈ entries, Bounded size entry.payload := by
  cases keep with
  | true =>
      cases kept
      intro entry member
      rcases List.mem_cons.mp member with rfl | member
      · exact bounded
      · exact boundedOthers entry member
  | false =>
      cases kept
      exact boundedOthers

/-- No entry of a record holds a block that is longer than the record. -/
theorem bounded_of_readAll {depth steps : Nat} {opened : List Nat} {input : List UInt8}
    {entries : List Entry} (found : readAll depth steps opened input = some entries) :
    ∀ entry ∈ entries, Bounded input.length entry.payload := by
  induction steps generalizing opened input entries with
  | zero =>
      cases input with
      | nil =>
          rw [readAll] at found
          split at found
          · cases found
            exact fun _ member => absurd member List.not_mem_nil
          · cases found
      | cons byte input => cases found
  | succ steps ih =>
      cases input with
      | nil =>
          rw [readAll] at found
          split at found
          · cases found
            exact fun _ member => absurd member List.not_mem_nil
          · cases found
      | cons byte input =>
          simp only [readAll] at found
          obtain ⟨⟨number, form, rest⟩, key, found⟩ := Option.bind_eq_some_iff.mp found
          have shorter := readKey_length key
          have later : ∀ {others opened}, readAll depth steps opened rest = some others →
              ∀ entry ∈ others, Bounded (byte :: input).length entry.payload :=
            fun read entry member => (ih read entry member).mono shorter
          simp only at found
          split at found
          · split at found
            · split at found
              · exact later found
              · cases found
            · cases found
          · split at found
            · obtain ⟨others, read, kept⟩ := Option.bind_eq_some_iff.mp found
              exact bounded_of_kept (fun _ other => Payload.noConfusion other) (later read) kept
            · cases found
          · split at found
            · obtain ⟨⟨payload, left⟩, taken, found⟩ := Option.bind_eq_some_iff.mp found
              obtain ⟨others, read, kept⟩ := Option.bind_eq_some_iff.mp found
              have lengths := readPayload_lengths taken
              refine bounded_of_kept (lengths.1.mono shorter) (fun entry member => ?_) kept
              exact (ih read entry member).mono (Nat.le_trans lengths.2 shorter)
            · cases found

theorem length_text_le {size : Nat} {payload : Payload} (bounded : Bounded size payload)
    {text : String} (found : text? payload = some text) : (Text.utf8 text).length ≤ size := by
  cases payload with
  | block data =>
      rw [Text.utf8_of_ofUtf8? found]
      exact bounded data rfl
  | _ => cases found

end Entry

def MatchSheet.Bounded (size : Nat) (sheet : MatchSheet) : Prop :=
  (Text.utf8 sheet.map).length ≤ size ∧ (Text.utf8 sheet.host).length ≤ size

theorem MatchSheet.bounded_absorb {size : Nat} {sheet after : MatchSheet} {entry : Entry}
    (short : sheet.Bounded size) (bounded : Entry.Bounded size entry.payload)
    (absorbed : sheet.absorb entry = some after) : after.Bounded size := by
  unfold absorb at absorbed
  split at absorbed
  · obtain ⟨text, found, same⟩ := Option.bind_eq_some_iff.mp absorbed
    cases same
    exact ⟨Entry.length_text_le bounded found, short.2⟩
  · obtain ⟨text, found, same⟩ := Option.bind_eq_some_iff.mp absorbed
    cases same
    exact ⟨short.1, Entry.length_text_le bounded found⟩
  · obtain ⟨number, found, same⟩ := Option.bind_eq_some_iff.mp absorbed
    cases same
    exact short
  · obtain ⟨number, found, same⟩ := Option.bind_eq_some_iff.mp absorbed
    cases same
    exact short
  · obtain ⟨text, found, same⟩ := Option.bind_eq_some_iff.mp absorbed
    cases same
    exact short
  · cases absorbed
    exact short

theorem MatchSheet.bounded_foldlM {size : Nat} {entries : List Entry} {sheet after : MatchSheet}
    (short : sheet.Bounded size) (bounded : ∀ entry ∈ entries, Entry.Bounded size entry.payload)
    (absorbed : entries.foldlM absorb sheet = some after) : after.Bounded size := by
  induction entries generalizing sheet with
  | nil =>
      cases absorbed
      exact short
  | cons entry entries ih =>
      rw [List.foldlM_cons] at absorbed
      obtain ⟨next, one, others⟩ := Option.bind_eq_some_iff.mp absorbed
      exact ih (bounded_absorb short (bounded entry List.mem_cons_self) one)
        (fun other member => bounded other (List.mem_cons_of_mem _ member)) others

/-- The texts of a sheet are no longer than the record that it was read from. -/
theorem MatchSheet.bounded_of_ofBytes? {input : List UInt8} {sheet : MatchSheet}
    (found : ofBytes? input = some sheet) : sheet.Bounded input.length := by
  unfold ofBytes? at found
  obtain ⟨entries, read, found⟩ := Option.bind_eq_some_iff.mp found
  obtain ⟨roster, seats, found⟩ := Option.bind_eq_some_iff.mp found
  obtain ⟨plain, absorbed, same⟩ := Option.bind_eq_some_iff.mp found
  cases same
  have short : plain.Bounded input.length :=
    bounded_foldlM ⟨Nat.zero_le _, Nat.zero_le _⟩ (Entry.bounded_of_readAll read) absorbed
  exact short

theorem length_utf8_digest_le (message : List UInt8) :
    (Text.utf8 (Digest.Sha256.hex message)).length ≤ 256 := by
  have digits : ((Digest.Sha256.digest message).flatMap Hex.byte).length = 64 := rfl
  have bound := Text.length_utf8_ofList_le ((Digest.Sha256.digest message).flatMap Hex.byte)
  rw [digits] at bound
  exact bound

end MatchTape.Record
