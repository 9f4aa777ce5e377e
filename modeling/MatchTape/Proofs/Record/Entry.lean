import MatchTape.Proofs.Bytes
import MatchTape.Record.Entry

/-!
# Entries survive a record

Numbers below two to the power of 64 are read back from their digits, and the
entries of a record are read back in their order, as long as every entry has a
number that fits a key and a block whose length is such a number.
-/

namespace MatchTape.Record

/-! ## Numbers -/

namespace Varint

theorem digits_ne_nil (more value : Nat) : digits more value ≠ [] := by
  cases more with
  | zero => exact List.cons_ne_nil _ _
  | succ more =>
      rw [digits]
      split <;> exact List.cons_ne_nil _ _

theorem length_digits_le (more value : Nat) : (digits more value).length ≤ more + 1 := by
  induction more generalizing value with
  | zero => exact Nat.le_refl 1
  | succ more ih =>
      rw [digits]
      split
      · exact Nat.succ_le_succ (Nat.zero_le _)
      · exact Nat.succ_le_succ (ih _)

theorem readWithin_digits {more value : Nat} (fits : value < 2 * 128 ^ more)
    (rest : List UInt8) :
    readWithin (more + 1) (digits more value ++ rest) = some (value, rest) := by
  induction more generalizing value with
  | zero =>
      have byte : (UInt8.ofNat value).toNat = value := by
        rw [UInt8.toNat_ofNat']
        omega
      have small : UInt8.ofNat value < 128 := by
        rw [UInt8.lt_iff_toNat_lt, byte]
        exact Nat.lt_trans fits (by decide)
      have bit : ¬ (1 : UInt8) < UInt8.ofNat value := by
        rw [UInt8.lt_iff_toNat_lt, byte]
        exact Nat.not_lt.mpr (Nat.le_of_lt_succ fits)
      simp only [digits, List.cons_append, List.nil_append, readWithin, small, bit, if_true,
        and_false, if_false, byte]
  | succ more ih =>
      rw [digits]
      split
      · next short =>
          have byte : (UInt8.ofNat value).toNat = value := by
            rw [UInt8.toNat_ofNat']
            omega
          have small : UInt8.ofNat value < 128 := by
            rw [UInt8.lt_iff_toNat_lt, byte]
            exact short
          simp only [List.cons_append, List.nil_append, readWithin, small, if_true,
            Nat.add_one_ne_zero, false_and, if_false, byte]
      · next long =>
          have byte : (UInt8.ofNat (value % 128 + 128)).toNat = value % 128 + 128 := by
            rw [UInt8.toNat_ofNat']
            omega
          have large : ¬ UInt8.ofNat (value % 128 + 128) < 128 := by
            rw [UInt8.lt_iff_toNat_lt, byte]
            exact Nat.not_lt.mpr (Nat.le_add_left _ _)
          have high : value / 128 < 2 * 128 ^ more := by
            rw [Nat.div_lt_iff_lt_mul (by decide)]
            rw [Nat.pow_succ] at fits
            omega
          have joined : value % 128 + 128 - 128 + 128 * (value / 128) = value := by omega
          rw [List.cons_append, readWithin, if_neg large, ih high, Option.map_some, byte]
          simp only [joined]

theorem read_bytes {value : Nat} (fits : value < 2 ^ 64) (rest : List UInt8) :
    read (bytes value ++ rest) = some (value, rest) :=
  readWithin_digits fits rest

end Varint

/-! ## Entries -/

namespace Entry

/-- The entry has a number that fits a key, and its payload is a number or a block
whose length can be told. -/
def Readable (entry : Entry) : Prop :=
  (0 < entry.number ∧ entry.number < 2 ^ 29) ∧
    match entry.payload with
    | .number _ => True
    | .block bytes => bytes.length < 2 ^ 64
    | _ => False

theorem bytes_ne_nil (entry : Entry) : entry.bytes ≠ [] :=
  List.append_ne_nil_of_left_ne_nil (Varint.digits_ne_nil _ _) _

theorem form_lt (payload : Payload) : payload.form < 8 := by
  cases payload <;> simp [Payload.form]

theorem readKey_bytes {number : Nat} (bounds : 0 < number ∧ number < 2 ^ 29) (payload : Payload)
    (rest : List UInt8) :
    readKey (Varint.bytes (number * 8 + payload.form) ++ rest) =
      some (number, payload.form, rest) := by
  have form := form_lt payload
  have fits : number * 8 + payload.form < 2 ^ 64 := by omega
  have inKey : ¬ (UInt32.size ≤ number * 8 + payload.form ∨ number * 8 + payload.form < 8) := by
    simp only [UInt32.size]
    omega
  have quotient : (number * 8 + payload.form) / 8 = number := by omega
  have remainder : (number * 8 + payload.form) % 8 = payload.form := by omega
  rw [readKey, Varint.read_bytes fits]
  simp only [Option.bind_eq_bind, Option.bind_some, if_neg inKey, quotient, remainder]

theorem takeExactly_append (data rest : List UInt8) :
    takeExactly data.length (data ++ rest) = some (data, rest) := by
  simp [takeExactly]

theorem readPayload_bytes {entry : Entry} (readable : entry.Readable) (rest : List UInt8) :
    readPayload entry.payload.form (entry.payload.bytes ++ rest) = some (entry.payload, rest) := by
  obtain ⟨number, payload⟩ := entry
  cases payload with
  | number value =>
      simp [readPayload, Payload.form, Payload.bytes, Varint.read_bytes value.toNat_lt]
  | block bytes =>
      simp [readPayload, Payload.form, Payload.bytes, Varint.read_bytes readable.2,
        takeExactly_append]
  | eight _ | group | four _ => exact absurd readable.2 id

theorem readAll_entry {depth : Nat} {entry : Entry} (deep : 0 < depth)
    (readable : entry.Readable) (steps : Nat) (rest : List UInt8) :
    readAll depth (steps + 1) [] (entry.bytes ++ rest) =
      (readAll depth steps [] rest).map (entry :: ·) := by
  have key : readKey (entry.bytes ++ rest) =
      some (entry.number, entry.payload.form, entry.payload.bytes ++ rest) := by
    rw [bytes, List.append_assoc]
    exact readKey_bytes readable.1 entry.payload _
  have payload := readPayload_bytes readable rest
  cases input : entry.bytes ++ rest with
  | nil => exact absurd (List.append_eq_nil_iff.mp input).1 entry.bytes_ne_nil
  | cons byte tail =>
      rw [input] at key
      obtain ⟨number, found⟩ := entry
      cases found with
      | number _ | block _ =>
          simp only [readAll, key, Payload.form, List.length_nil, deep, if_true] at payload ⊢
          simp only [Option.bind_eq_bind, Option.bind_some, payload]
          cases readAll depth steps [] rest <;> rfl
      | eight _ | group | four _ => exact absurd readable.2 id

theorem readAll_bytes {depth steps : Nat} {entries : List Entry} (deep : 0 < depth)
    (readable : ∀ entry ∈ entries, entry.Readable) (enough : entries.length ≤ steps) :
    readAll depth steps [] (entries.flatMap bytes) = some entries := by
  induction entries generalizing steps with
  | nil => cases steps <;> rfl
  | cons entry entries ih =>
      cases steps with
      | zero => exact absurd enough (Nat.not_succ_le_zero _)
      | succ steps =>
          have others := ih (fun other member => readable other (List.mem_cons_of_mem _ member))
            (Nat.le_of_succ_le_succ enough)
          rw [List.flatMap_cons, readAll_entry deep (readable entry List.mem_cons_self), others,
            Option.map_some]

theorem length_le_flatMap_bytes (entries : List Entry) :
    entries.length ≤ (entries.flatMap bytes).length := by
  induction entries with
  | nil => exact Nat.zero_le _
  | cons entry entries ih =>
      have positive : 0 < entry.bytes.length := List.length_pos_iff.mpr entry.bytes_ne_nil
      rw [List.flatMap_cons, List.length_append, List.length_cons]
      omega

/-- Readable entries are read back in their order. -/
theorem list?_bytes {depth : Nat} {entries : List Entry} (deep : 0 < depth)
    (readable : ∀ entry ∈ entries, entry.Readable) :
    list? depth (entries.flatMap bytes) = some entries :=
  readAll_bytes deep readable (length_le_flatMap_bytes entries)

/-! ## Entries that may be left out -/

section Absorbing

variable {σ : Type} {absorb : σ → Entry → Option σ} {before after : σ} {number : Nat}

/-- A number is taken over whether it is left out or not. -/
theorem foldlM_ofNumber {value : UInt64}
    (taken : absorb before ⟨number, .number value⟩ = some after)
    (idle : value = 0 → before = after) :
    (ofNumber number value).foldlM absorb before = some after := by
  rw [ofNumber]
  split
  · next zero =>
      rw [← idle zero]
      rfl
  · rw [List.foldlM_cons, taken]
    rfl

theorem foldlM_ofNumber32 {value : UInt32}
    (taken : absorb before ⟨number, .number value.toUInt64⟩ = some after)
    (idle : value = 0 → before = after) :
    (ofNumber number value.toUInt64).foldlM absorb before = some after :=
  foldlM_ofNumber taken fun zero => idle (UInt32.toUInt64_inj.mp zero)

theorem foldlM_ofBlock {bytes : List UInt8}
    (taken : absorb before ⟨number, .block bytes⟩ = some after)
    (idle : bytes = [] → before = after) :
    (ofBlock number bytes).foldlM absorb before = some after := by
  rw [ofBlock]
  split
  · next empty =>
      rw [← idle (List.isEmpty_iff.mp empty)]
      rfl
  · rw [List.foldlM_cons, taken]
    rfl

theorem foldlM_ofText {text : String}
    (taken : absorb before ⟨number, .block (Text.utf8 text)⟩ = some after)
    (idle : text = "" → before = after) :
    (ofText number text).foldlM absorb before = some after :=
  foldlM_ofBlock taken fun empty => idle (Text.eq_empty_of_utf8 empty)

end Absorbing

theorem readable_ofNumber {number : Nat} (bounds : 0 < number ∧ number < 2 ^ 29)
    (value : UInt64) : ∀ entry ∈ ofNumber number value, entry.Readable := by
  intro entry member
  rw [ofNumber] at member
  split at member
  · cases member
  · rw [List.mem_singleton.mp member]
    exact ⟨bounds, trivial⟩

theorem readable_ofBlock {number : Nat} (bounds : 0 < number ∧ number < 2 ^ 29)
    {bytes : List UInt8} (short : bytes.length < 2 ^ 64) :
    ∀ entry ∈ ofBlock number bytes, entry.Readable := by
  intro entry member
  rw [ofBlock] at member
  split at member
  · cases member
  · rw [List.mem_singleton.mp member]
    exact ⟨bounds, short⟩

/-- A key and a number take at most ten bytes each. -/
theorem length_ofNumber_le (number : Nat) (value : UInt64) :
    ((ofNumber number value).flatMap bytes).length ≤ 20 := by
  rw [ofNumber]
  split
  · exact Nat.zero_le _
  · have key := Varint.length_digits_le (Varint.most - 1) (number * 8 + 0)
    have digits := Varint.length_digits_le (Varint.most - 1) value.toNat
    rw [List.flatMap_singleton, bytes, List.length_append]
    exact Nat.add_le_add key digits

/-- Numbers with the same bytes are the same, also if one of them is left out. -/
theorem ofNumber_bytes_injective {number : Nat} (bounds : 0 < number ∧ number < 2 ^ 29)
    {first second : UInt64}
    (same : (ofNumber number first).flatMap bytes = (ofNumber number second).flatMap bytes) :
    first = second := by
  have reads : ∀ value, list? 1 ((ofNumber number value).flatMap bytes) =
      some (ofNumber number value) := fun value =>
    list?_bytes Nat.one_pos (readable_ofNumber bounds value)
  have entries := reads first
  rw [same, reads second, Option.some.injEq, ofNumber, ofNumber] at entries
  split at entries
  · next zero =>
      split at entries
      · next nothing => exact nothing.trans zero.symm
      · cases entries
  · split at entries
    · cases entries
    · cases entries
      rfl

theorem length_le_ofBlock (number : Nat) (bytes : List UInt8) :
    bytes.length ≤ ((ofBlock number bytes).flatMap Entry.bytes).length := by
  rw [ofBlock]
  split
  · next empty => simp [List.isEmpty_iff.mp empty]
  · simp only [List.flatMap_cons, List.flatMap_nil, List.append_nil, Entry.bytes, Payload.bytes,
      List.length_append]
    omega

theorem length_ofBlock_le (number : Nat) (bytes : List UInt8) :
    ((ofBlock number bytes).flatMap Entry.bytes).length ≤ 20 + bytes.length := by
  rw [ofBlock]
  split
  · exact Nat.zero_le _
  · have key := Varint.length_digits_le (Varint.most - 1) (number * 8 + 2)
    have size := Varint.length_digits_le (Varint.most - 1) bytes.length
    rw [List.flatMap_singleton, Entry.bytes, List.length_append, Payload.bytes, List.length_append,
      ← Nat.add_assoc]
    exact Nat.add_le_add_right (Nat.add_le_add key size) _

/-- Looking for the entries of one number passes over a block of another. -/
theorem filter_ofBlock {number sought : Nat} (other : number ≠ sought) (bytes : List UInt8) :
    (ofBlock number bytes).filter (·.number == sought) = [] := by
  rw [ofBlock]
  split
  · rfl
  · simp [other]

theorem filter_ofNumber {number sought : Nat} (other : number ≠ sought) (value : UInt64) :
    (ofNumber number value).filter (·.number == sought) = [] := by
  rw [ofNumber]
  split
  · rfl
  · simp [other]

end Entry

end MatchTape.Record
