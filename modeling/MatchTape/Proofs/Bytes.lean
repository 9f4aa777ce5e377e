import Mathlib.Algebra.Group.Nat.Defs
import Mathlib.Data.List.TakeWhile
import MatchTape.Bytes.Text
import MatchTape.Bytes.Word

/-!
# Words and texts survive as bytes

A number that fits a width is read back from its digits, bytes are read back from their
hexadecimal text, and both encodings of a text are read back to the text they came from.  The
part of a text before its first NUL has no zero byte in UTF-8, so that a zero byte can end it.
Units that are cut to a length are those of the longest whole characters at the front that take no
more.
-/

namespace MatchTape.Word

/-- A value that fits the width is read back from its digits. -/
theorem ofBytes_toBytes {width value : Nat} (fits : value < 256 ^ width) :
    ofBytes (toBytes width value) = value := by
  induction width generalizing value with
  | zero => simp at fits; simp [toBytes, ofBytes, fits]
  | succ width ih =>
      have high : value / 256 < 256 ^ width := by
        rw [Nat.div_lt_iff_lt_mul (by decide)]
        simpa [Nat.pow_succ] using fits
      simp only [toBytes, ofBytes, ih high, UInt8.toNat_ofNat']
      omega

theorem ofBytes_lt (bytes : List UInt8) : ofBytes bytes < 256 ^ bytes.length := by
  induction bytes with
  | nil => simp [ofBytes]
  | cons byte rest ih =>
      have small := byte.toNat_lt
      simp only [ofBytes, List.length_cons, Nat.pow_succ]
      omega

end MatchTape.Word

namespace MatchTape.Hex

theorem value?_digit : ∀ value < 16, value? (digit value) = some value := by
  decide

theorem ofDigits?_flatMap_byte (bytes : List UInt8) :
    ofDigits? (bytes.flatMap byte) = some bytes := by
  induction bytes with
  | nil => rfl
  | cons first rest ih =>
      have small := first.toNat_lt
      have high : value? (digit (first.toNat / 16)) = some (first.toNat / 16) :=
        value?_digit _ (by omega)
      have low : value? (digit (first.toNat % 16)) = some (first.toNat % 16) :=
        value?_digit _ (by omega)
      have whole : UInt8.ofNat (16 * (first.toNat / 16) + first.toNat % 16) = first := by
        rw [Nat.div_add_mod]
        exact UInt8.ofNat_toNat
      change ofDigits? (digit (first.toNat / 16) :: digit (first.toNat % 16) ::
        rest.flatMap byte) = _
      simp only [ofDigits?, high, low, ih, Option.bind_eq_bind, Option.bind_some, whole]
      rfl

/-- Different bytes, such as two digests, are never written as the same text. -/
theorem toBytes?_ofBytes (bytes : List UInt8) : toBytes? (ofBytes bytes) = some bytes := by
  rw [toBytes?, ofBytes, String.toList_ofList]
  exact ofDigits?_flatMap_byte bytes

end MatchTape.Hex

namespace MatchTape.Text

/-! ## UTF-8 -/

theorem utf8_ofList (chars : List Char) :
    utf8 (String.ofList chars) = chars.flatMap String.utf8EncodeChar := by
  simp [utf8, List.utf8Encode]

theorem length_utf8_ofList_le (chars : List Char) :
    (utf8 (String.ofList chars)).length ≤ 4 * chars.length := by
  rw [utf8_ofList]
  induction chars with
  | nil => exact Nat.le_refl 0
  | cons char chars ih =>
      have size := char.utf8Size_le_four
      rw [List.flatMap_cons, List.length_append, String.length_utf8EncodeChar, List.length_cons]
      omega

/-- The bytes of a text that was read are the bytes it was read from. -/
theorem utf8_of_ofUtf8? {bytes : List UInt8} {text : String} (found : ofUtf8? bytes = some text) :
    utf8 text = bytes := by
  unfold ofUtf8? String.fromUTF8? at found
  split at found
  · cases found
    simp [utf8, String.fromUTF8]
  · cases found

theorem eq_empty_of_utf8 {text : String} (empty : utf8 text = []) : text = "" := by
  have found := ofUtf8?_utf8 text
  rw [empty, show ([] : List UInt8) = utf8 "" from rfl, ofUtf8?_utf8] at found
  exact (Option.some.inj found).symm

theorem zero_notMem_utf8EncodeChar {char : Char} (visible : char ≠ '\x00') :
    (0 : UInt8) ∉ String.utf8EncodeChar char := by
  have positive : char.toNat ≠ 0 := fun zero =>
    visible (Char.ext (UInt32.toNat_inj.mp zero))
  intro member
  simp only [String.utf8EncodeChar, Char.toNat_val] at member
  split at member
  · simp [← UInt8.toNat_inj] at member
    omega
  · split at member
    · simp [← UInt8.toNat_inj] at member
      omega
    · split at member <;> simp [← UInt8.toNat_inj] at member <;> omega

theorem zero_notMem_utf8_beforeNul (text : String) : (0 : UInt8) ∉ utf8 (beforeNul text) := by
  intro member
  rw [beforeNul, utf8_ofList] at member
  obtain ⟨char, kept, byte⟩ := List.mem_flatMap.mp member
  have visible := List.mem_takeWhile_imp kept
  exact zero_notMem_utf8EncodeChar (by simpa using visible) byte

theorem beforeNul_of_notMem {text : String} (plain : '\x00' ∉ text.toList) :
    beforeNul text = text := by
  have kept : text.toList.takeWhile (· != '\x00') = text.toList := by
    rw [List.takeWhile_eq_self_iff]
    intro char member
    have visible : char ≠ '\x00' := fun nul => plain (nul ▸ member)
    simpa using visible
  rw [beforeNul, kept, String.ofList_toList]

theorem beforeNul_eq_self_iff {text : String} :
    beforeNul text = text ↔ '\x00' ∉ text.toList := by
  constructor
  · intro whole nul
    have kept : text.toList.takeWhile (· != '\x00') = text.toList := by
      rw [← String.toList_ofList (l := text.toList.takeWhile _)]
      exact congrArg String.toList whole
    rw [← kept] at nul
    have visible := List.mem_takeWhile_imp nul
    simp at visible
  · exact beforeNul_of_notMem

theorem beforeNul_of_zero_notMem {text : String} (plain : (0 : UInt8) ∉ utf8 text) :
    beforeNul text = text := by
  refine beforeNul_of_notMem fun nul => plain ?_
  rw [← String.ofList_toList (s := text), utf8_ofList]
  exact List.mem_flatMap.mpr ⟨'\x00', nul, by decide⟩

/-! ## UTF-16 -/

theorem char_ranges (char : Char) :
    char.toNat < 0xD800 ∨ 0xE000 ≤ char.toNat ∧ char.toNat < 0x110000 := by
  have valid : char.toNat.isValidChar := char.valid
  unfold Nat.isValidChar at valid
  omega

theorem isLeading_iff (unit : UInt16) :
    isLeading unit = true ↔ 0xD800 ≤ unit.toNat ∧ unit.toNat < 0xDC00 := by
  simp [isLeading, UInt16.le_iff_toNat_le, UInt16.lt_iff_toNat_lt]

theorem isTrailing_iff (unit : UInt16) :
    isTrailing unit = true ↔ 0xDC00 ≤ unit.toNat ∧ unit.toNat < 0xE000 := by
  simp [isTrailing, UInt16.le_iff_toNat_le, UInt16.lt_iff_toNat_lt]

theorem isLeading_ofNat_of_large {char : Char} (large : ¬ char.toNat < 0x10000) :
    isLeading (UInt16.ofNat (0xD800 + (char.toNat - 0x10000) / 0x400)) = true := by
  have ranges := char_ranges char
  rw [isLeading_iff, UInt16.toNat_ofNat']
  omega

theorem ofUtf16?_unitsOf_append (char : Char) (rest : List UInt16) :
    ofUtf16? (unitsOf char ++ rest) = (ofUtf16? rest).map (char :: ·) := by
  have ranges := char_ranges char
  by_cases small : char.toNat < 0x10000
  · have unit : (UInt16.ofNat char.toNat).toNat = char.toNat := by
      rw [UInt16.toNat_ofNat']
      omega
    have notLeading : ¬ isLeading (UInt16.ofNat char.toNat) = true := by
      rw [isLeading_iff]
      omega
    have notTrailing : ¬ isTrailing (UInt16.ofNat char.toNat) = true := by
      rw [isTrailing_iff]
      omega
    rw [unitsOf, if_pos small, List.singleton_append, ofUtf16?.eq_def]
    simp only [notLeading, notTrailing, unit, Char.ofNat_toNat]
    rfl
  · have leadingUnit : (UInt16.ofNat (0xD800 + (char.toNat - 0x10000) / 0x400)).toNat =
        0xD800 + (char.toNat - 0x10000) / 0x400 := by
      rw [UInt16.toNat_ofNat']
      omega
    have trailingUnit : (UInt16.ofNat (0xDC00 + (char.toNat - 0x10000) % 0x400)).toNat =
        0xDC00 + (char.toNat - 0x10000) % 0x400 := by
      rw [UInt16.toNat_ofNat']
      omega
    have leading := isLeading_ofNat_of_large small
    have trailing :
        isTrailing (UInt16.ofNat (0xDC00 + (char.toNat - 0x10000) % 0x400)) = true := by
      rw [isTrailing_iff]
      omega
    have joined : 0x10000 + (0xD800 + (char.toNat - 0x10000) / 0x400 - 0xD800) * 0x400 +
        (0xDC00 + (char.toNat - 0x10000) % 0x400 - 0xDC00) = char.toNat := by
      omega
    rw [unitsOf, if_neg small]
    simp only [List.cons_append, List.nil_append, ofUtf16?, leading, trailing, if_true]
    rw [pairChar, leadingUnit, trailingUnit, joined, Char.ofNat_toNat]

/-- The units of characters are read back to those characters. -/
@[simp] theorem ofUtf16?_utf16 (chars : List Char) : ofUtf16? (utf16 chars) = some chars := by
  induction chars with
  | nil => rfl
  | cons char rest ih =>
      rw [utf16, List.flatMap_cons, ofUtf16?_unitsOf_append]
      change (ofUtf16? (utf16 rest)).map _ = _
      rw [ih, Option.map_some]

theorem fitting_eq_self {room : Nat} {chars : List Char} (fits : (utf16 chars).length ≤ room) :
    fitting room chars = chars := by
  induction chars generalizing room with
  | nil => rfl
  | cons char rest ih =>
      rw [utf16, List.flatMap_cons, List.length_append] at fits
      have others : (utf16 rest).length ≤ room - (unitsOf char).length := by
        rw [utf16]
        omega
      rw [fitting, if_pos (by omega), ih others]

theorem length_utf16_fitting_le (room : Nat) (chars : List Char) :
    (utf16 (fitting room chars)).length ≤ room := by
  induction chars generalizing room with
  | nil => simp [fitting, utf16]
  | cons char rest ih =>
      unfold fitting
      split
      · next fits =>
          have bound := ih (room - (unitsOf char).length)
          simp only [utf16, List.flatMap_cons, List.length_append] at bound ⊢
          omega
      · simp [utf16]

/-! ## Texts cut to a length -/

/-- The first unit of a pair never ends a character. -/
theorem getLast?_unitsOf (char : Char) : (unitsOf char).getLast?.any isLeading = false := by
  have ranges := char_ranges char
  rw [← Bool.not_eq_true]
  intro leads
  unfold unitsOf at leads
  split at leads
  · rw [List.getLast?_singleton, Option.any_some, isLeading_iff, UInt16.toNat_ofNat'] at leads
    omega
  · rw [List.getLast?_cons_cons, List.getLast?_singleton, Option.any_some, isLeading_iff,
      UInt16.toNat_ofNat'] at leads
    omega

/-- What stands behind a whole character is cut without it. -/
theorem dropStranded_unitsOf_append (char : Char) (units : List UInt16) :
    dropStranded (unitsOf char ++ units) = unitsOf char ++ dropStranded units := by
  unfold dropStranded
  by_cases last : units = []
  · subst last
    rw [List.append_nil, getLast?_unitsOf]
    simp
  · rw [List.getLast?_append, List.getLast?_eq_some_getLast last, Option.some_or,
      List.dropLast_append_of_ne_nil last]
    split <;> rfl

/-- Nothing is kept of a character that takes more units than there is room for. -/
theorem dropStranded_take_unitsOf {char : Char} {room : Nat}
    (large : room < (unitsOf char).length) : dropStranded ((unitsOf char).take room) = [] := by
  by_cases small : char.toNat < 0x10000
  · rw [unitsOf, if_pos small] at large ⊢
    rw [List.length_singleton, Nat.lt_one_iff] at large
    rw [large, List.take_zero]
    rfl
  · have leads := isLeading_ofNat_of_large small
    rw [unitsOf, if_neg small] at large ⊢
    simp only [List.length_cons, List.length_nil] at large
    obtain rfl | rfl : room = 0 ∨ room = 1 := by omega
    · rfl
    · rw [List.take_succ_cons, List.take_zero, dropStranded, List.getLast?_singleton,
        Option.any_some, if_pos leads]
      rfl

/-- Units that are cut to a length are those of the characters that fit. -/
theorem dropStranded_take_utf16 (room : Nat) (chars : List Char) :
    dropStranded ((utf16 chars).take room) = utf16 (fitting room chars) := by
  induction chars generalizing room with
  | nil => simp [utf16, fitting, dropStranded]
  | cons char rest ih =>
      rw [utf16, List.flatMap_cons, fitting]
      by_cases fits : (unitsOf char).length ≤ room
      · rw [if_pos fits, List.take_append, List.take_of_length_le fits,
          dropStranded_unitsOf_append, utf16, List.flatMap_cons]
        exact congrArg _ (ih _)
      · rw [if_neg fits, List.take_append_of_le_length (Nat.le_of_not_le fits),
          dropStranded_take_unitsOf (Nat.lt_of_not_le fits)]
        rfl

theorem cut_utf16 (room : Nat) (chars : List Char) :
    cut room (utf16 chars) = utf16 (fitting room chars) := by
  unfold cut
  split
  · next fits => rw [fitting_eq_self fits]
  · exact dropStranded_take_utf16 room chars

theorem fitting_isPrefix (room : Nat) (chars : List Char) : fitting room chars <+: chars := by
  induction chars generalizing room with
  | nil => exact List.nil_prefix
  | cons char rest ih =>
      unfold fitting
      split
      · exact (List.prefix_cons_inj char).mpr (ih _)
      · exact List.nil_prefix

/-- Whole characters at the front that fit are among those that are kept. -/
theorem isPrefix_fitting {room : Nat} {front chars : List Char} (begins : front <+: chars)
    (fits : (utf16 front).length ≤ room) : front <+: fitting room chars := by
  induction front generalizing room chars with
  | nil => exact List.nil_prefix
  | cons char front ih =>
      obtain ⟨rest, rfl⟩ := begins
      rw [utf16, List.flatMap_cons, List.length_append] at fits
      have others : (utf16 front).length ≤ room - (unitsOf char).length := by
        rw [utf16]
        omega
      rw [List.cons_append, fitting, if_pos (by omega)]
      exact (List.prefix_cons_inj char).mpr (ih (List.prefix_append front rest) others)

/-- Whole characters at the front of a text that take at most `room` units, and all others
that do are at the front of them. -/
structure Longest (room : Nat) (chars kept : List Char) : Prop where
  front : kept <+: chars
  fits : (utf16 kept).length ≤ room
  most : ∀ other, other <+: chars → (utf16 other).length ≤ room → other <+: kept

theorem longest_fitting (room : Nat) (chars : List Char) :
    Longest room chars (fitting room chars) where
  front := fitting_isPrefix room chars
  fits := length_utf16_fitting_le room chars
  most _ := isPrefix_fitting

end MatchTape.Text
