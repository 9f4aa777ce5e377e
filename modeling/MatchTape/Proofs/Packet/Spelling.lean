import Mathlib
import MatchTape.Proofs.Packet.Steady

/-!
# Bytes that spell what was read

`Spells` says of a reader which bytes it has taken when it gives a value: they stand at the
front of the input, the cursor has moved behind them, and they stand in a relation to the value.
For most fields the relation is that they are the field's own bytes, so that nothing else could
have been read as that value.  Readers that are joined spell what their parts spell, one after
the other.
-/

namespace MatchTape.Text

/-- A unit that belongs to no pair is the unit of its character. -/
theorem unitsOf_ofNat {unit : UInt16} (notLeading : isLeading unit = false)
    (notTrailing : isTrailing unit = false) : unitsOf (Char.ofNat unit.toNat) = [unit] := by
  rw [← Bool.not_eq_true, isLeading_iff] at notLeading
  rw [← Bool.not_eq_true, isTrailing_iff] at notTrailing
  have small := unit.toNat_lt
  have valid : unit.toNat.isValidChar := by
    unfold Nat.isValidChar
    omega
  rw [unitsOf, Char.toNat_ofNat, if_pos valid, if_pos small, UInt16.ofNat_toNat]

theorem unitsOf_pairChar {leading trailing : UInt16} (leads : isLeading leading = true)
    (trails : isTrailing trailing = true) :
    unitsOf (pairChar leading trailing) = [leading, trailing] := by
  rw [isLeading_iff] at leads
  rw [isTrailing_iff] at trails
  have valid : (0x10000 + (leading.toNat - 0xD800) * 0x400 +
      (trailing.toNat - 0xDC00)).isValidChar := by
    unfold Nat.isValidChar
    omega
  have first : 0xD800 + (0x10000 + (leading.toNat - 0xD800) * 0x400 +
      (trailing.toNat - 0xDC00) - 0x10000) / 0x400 = leading.toNat := by omega
  have second : 0xDC00 + (0x10000 + (leading.toNat - 0xD800) * 0x400 +
      (trailing.toNat - 0xDC00) - 0x10000) % 0x400 = trailing.toNat := by omega
  rw [unitsOf, pairChar, Char.toNat_ofNat, if_pos valid, if_neg (by omega)]
  simp only [first, second, UInt16.ofNat_toNat]

/-- The units of characters that were read are the units they were read from. -/
theorem utf16_of_ofUtf16? {units : List UInt16} {chars : List Char}
    (found : ofUtf16? units = some chars) : utf16 chars = units := by
  fun_induction ofUtf16? units generalizing chars with
  | case1 =>
      cases found
      rfl
  | case2 unit leads trailing rest trails ih =>
      obtain ⟨others, read, rfl⟩ := Option.map_eq_some_iff.mp found
      rw [utf16, List.flatMap_cons, unitsOf_pairChar leads trails]
      exact congrArg (unit :: trailing :: ·) (ih read)
  | case3 | case4 | case5 => cases found
  | case6 unit rest notLeading notTrailing ih =>
      obtain ⟨others, read, rfl⟩ := Option.map_eq_some_iff.mp found
      rw [utf16, List.flatMap_cons, unitsOf_ofNat (Bool.eq_false_iff.mpr notLeading)
        (Bool.eq_false_iff.mpr notTrailing)]
      exact congrArg (unit :: ·) (ih read)

end MatchTape.Text

namespace MatchTape.Packet.Reader

/-- The reader takes bytes from the front of its input that are related to the value it gives. -/
def Spells {α : Type} (reader : Reader α) (spelt : α → List UInt8 → Prop) : Prop :=
  ∀ input position value after, reader ⟨input, position⟩ = .ok value after →
    ∃ front rest, input = front ++ rest ∧ after = ⟨rest, position + front.length⟩ ∧
      spelt value front

namespace Spells

variable {α β : Type} {reader : Reader α} {next : α → Reader β}
variable {spelt : α → List UInt8 → Prop} {whole : β → List UInt8 → Prop}

/-! ## Joining readers -/

theorem mono {other : α → List UInt8 → Prop} (first : reader.Spells spelt)
    (also : ∀ value front, spelt value front → other value front) : reader.Spells other := by
  intro input position value after read
  obtain ⟨front, rest, split, moved, holds⟩ := first input position value after read
  exact ⟨front, rest, split, moved, also value front holds⟩

theorem pure {value : α} (holds : spelt value []) :
    (Pure.pure value : Reader α).Spells spelt := by
  intro input position found after read
  cases read
  exact ⟨[], input, rfl, rfl, holds⟩

theorem throw (fault : Fault) : (MonadExcept.throw fault : Reader α).Spells spelt := by
  intro input position value after read
  cases read

theorem bind (first : reader.Spells spelt)
    (second : ∀ value front, spelt value front →
      (next value).Spells fun result back => whole result (front ++ back)) :
    (reader >>= next).Spells whole := by
  intro input position result after read
  rw [run_bind] at read
  cases middle : reader ⟨input, position⟩ with
  | error fault stopped =>
      rw [middle] at read
      cases read
  | ok value between =>
      rw [middle] at read
      obtain ⟨front, rest, rfl, rfl, holds⟩ := first input position value between middle
      obtain ⟨back, behind, rfl, rfl, ends⟩ := second value front holds _ _ _ _ read
      refine ⟨front ++ back, behind, (List.append_assoc _ _ _).symm, ?_, ends⟩
      rw [List.length_append, Nat.add_assoc]

theorem map (first : reader.Spells spelt) (f : α → β)
    (holds : ∀ value front, spelt value front → whole (f value) front) :
    (do return f (← reader)).Spells whole := by
  refine first.bind fun value front found => pure ?_
  rw [List.append_nil]
  exact holds value front found

section

variable {encode : α → List UInt8}

/-- A reader may follow one that is sure to have read the bytes of its value. -/
theorem bind_eq (first : reader.Spells fun value front => front = encode value)
    (second : ∀ value, (next value).Spells fun result back => whole result (encode value ++ back)) :
    (reader >>= next).Spells whole :=
  first.bind fun value _ spelt => spelt ▸ second value

theorem map_eq (first : reader.Spells fun value front => front = encode value) (f : α → β)
    (holds : ∀ value, whole (f value) (encode value)) :
    (do return f (← reader)).Spells whole :=
  first.map f fun value _ spelt => spelt ▸ holds value

end

theorem length_eq {count : Nat} (first : reader.Spells spelt) (fixed : reader.Fixed count) :
    reader.Spells fun value front => spelt value front ∧ front.length = count := by
  intro input position value after read
  obtain ⟨front, rest, split, rfl, holds⟩ := first input position value after read
  have moved := fixed.moves input position value _ read
  exact ⟨front, rest, split, rfl, holds, Nat.add_left_cancel moved⟩

theorem position_bind {next : Nat → Reader β} (second : ∀ position, (next position).Spells whole) :
    (Reader.position >>= next).Spells whole :=
  fun input position => second position input position

/-- Asking for bytes takes none of them. -/
theorem require_bind {count : Nat} {next : Unit → Reader β} (second : (next ()).Spells whole) :
    (Reader.require count >>= next).Spells whole := by
  intro input position value after read
  rw [run_bind, Reader.require] at read
  by_cases enough : (input.take count).length = count
  · rw [if_pos enough] at read
    exact second input position value after read
  · rw [if_neg enough] at read
    cases read

/-! ## Bytes and words -/

theorem bytes (count : Nat) :
    (Reader.bytes count).Spells fun data front => front = data ∧ data.length = count := by
  intro input position data after read
  rw [Reader.bytes] at read
  split at read
  · next enough =>
      cases read
      refine ⟨input.take count, input.drop count, (List.take_append_drop _ _).symm, ?_, rfl,
        enough⟩
      rw [enough]
  · cases read

theorem word (width : Nat) : (Reader.word width).Spells fun number front =>
    front = Word.toBytes width number ∧ number < 256 ^ width := by
  refine (bytes width).map Word.ofBytes ?_
  rintro data front ⟨rfl, rfl⟩
  exact ⟨(Word.toBytes_ofBytes front).symm, Word.ofBytes_lt front⟩

theorem word8 : Reader.word8.Spells fun byte front => front = [byte] := by
  refine (word 1).map UInt8.ofNat ?_
  rintro number front ⟨rfl, -⟩
  rfl

theorem word16 : Reader.word16.Spells fun number front => front = Encoding.word16 number := by
  refine (word 2).map UInt16.ofNat ?_
  rintro number front ⟨rfl, fits⟩
  rw [Encoding.word16, UInt16.toNat_ofNat_of_lt' fits]

theorem word32 : Reader.word32.Spells fun number front => front = Encoding.word32 number := by
  refine (word 4).map UInt32.ofNat ?_
  rintro number front ⟨rfl, fits⟩
  rw [Encoding.word32, UInt32.toNat_ofNat_of_lt' fits]

theorem signed32 : Reader.signed32.Spells fun number front => front = Encoding.signed32 number := by
  refine word32.map UInt32.toInt32 ?_
  rintro number front rfl
  rw [Encoding.signed32, UInt32.toUInt32_toInt32]

theorem real : Reader.real.Spells fun number front => front = Encoding.real number := by
  refine word32.map Binary32.mk ?_
  rintro number front rfl
  rfl

/-! ## Tagged fields -/

theorem field (tag : Tag) :
    (Reader.field tag).Spells fun field front => field.tag = tag ∧ front = field.bytes := by
  intro input position found after read
  cases input with
  | nil => cases read
  | cons byte rest =>
      by_cases marked : byte = tag.byte
      · subst marked
        simp only [Reader.field, if_true, Reader.anyField, Tag.ofByte?_byte] at read
        split at read
        · next enough =>
            cases read
            have fits := Word.ofBytes_lt (rest.take tag.width)
            rw [enough] at fits
            have value : (Field.ofValue tag (Word.ofBytes (rest.take tag.width))).value =
                Word.ofBytes (rest.take tag.width) := by
              cases tag with
              | kind | relay | player => exact UInt8.toNat_ofNat_of_lt' fits
              | serial => exact UInt16.toNat_ofNat_of_lt' fits
              | frame => exact UInt32.toNat_ofNat_of_lt' fits
              | data => exact (Nat.lt_one_iff.mp fits).symm
            have digits := Word.toBytes_ofBytes (rest.take tag.width)
            rw [enough] at digits
            refine ⟨tag.byte :: rest.take tag.width, rest.drop tag.width, ?_, ?_,
              Field.tag_ofValue _ _, ?_⟩
            · rw [List.cons_append, List.take_append_drop]
            · rw [List.length_cons, enough, Tag.size, Nat.add_comm 1]
            · rw [Field.bytes, Field.tag_ofValue, value, digits]
        · cases read
      · simp only [Reader.field, if_neg marked] at read
        cases read

theorem byteField (tag : Tag) : (Reader.byteField tag).Spells fun value front =>
    front = (Field.ofValue tag value.toNat).bytes := by
  have spelt : ∀ field : Field, field.tag = tag →
      field.bytes ++ [] = (Field.ofValue tag field.value).bytes := by
    rintro field rfl
    rw [Field.ofValue_value, List.append_nil]
  refine (field tag).bind ?_
  rintro found front ⟨tagged, rfl⟩
  cases found with
  | kind value | relay value | player value => exact pure (spelt _ tagged)
  | serial | frame | data => exact position_bind fun position => throw _

theorem serialField : Reader.serialField.Spells fun number front =>
    front = (Field.serial number).bytes := by
  refine (field .serial).map (fun found => UInt16.ofNat found.value) ?_
  rintro found front ⟨tagged, rfl⟩
  cases found with
  | serial number => rw [Field.value, UInt16.ofNat_toNat]
  | kind | relay | player | frame | data => cases tagged

theorem frameField : Reader.frameField.Spells fun number front =>
    front = (Field.frame number).bytes := by
  refine (field .frame).map (fun found => UInt32.ofNat found.value) ?_
  rintro found front ⟨tagged, rfl⟩
  cases found with
  | frame number => rw [Field.value, UInt32.ofNat_toNat]
  | kind | relay | player | serial | data => cases tagged

/-! ## Texts and data -/

theorem terminated : Reader.terminated.Spells fun text front =>
    Text.beforeNul text = text ∧ front = Encoding.terminated text := by
  intro input position text after read
  rcases Steady.split_at_zero input with plain | ⟨body, rest, rfl, plain⟩
  · have front : input.takeWhile (· != 0) = input :=
      List.takeWhile_eq_self_iff.mpr (Reads.bne_zero plain)
    simp only [Reader.terminated, front, List.drop_length] at read
    cases read
  · rw [Reads.run_terminated plain] at read
    split at read
    · cases read
    · next found decoded =>
        cases read
        have spelt := Text.utf8_of_ofUtf8? decoded
        have whole : Text.beforeNul text = text :=
          Text.beforeNul_of_zero_notMem (spelt ▸ plain)
        refine ⟨body ++ [0], rest, ?_, ?_, whole, ?_⟩
        · rw [List.append_assoc, List.singleton_append]
        · rw [List.length_append, List.length_singleton, Nat.add_assoc]
        · rw [Encoding.terminated, whole, spelt]

theorem units_pairUp {bytes : List UInt8} {count : Nat} (even : bytes.length = 2 * count) :
    Encoding.units (Reader.pairUp bytes) = bytes ∧ (Reader.pairUp bytes).length = count := by
  induction count generalizing bytes with
  | zero =>
      rw [List.eq_nil_of_length_eq_zero even]
      exact ⟨rfl, rfl⟩
  | succ count ih =>
      match bytes, even with
      | low :: high :: rest, even =>
          obtain ⟨spelt, length⟩ := ih (Nat.succ.inj (Nat.succ.inj even))
          have fits : Word.ofBytes [low, high] < 256 ^ 2 := Word.ofBytes_lt [low, high]
          have digits : Word.toBytes 2 (Word.ofBytes [low, high]) = [low, high] :=
            Word.toBytes_ofBytes [low, high]
          rw [pairUp, List.length_cons, length, Encoding.units, List.flatMap_cons,
            UInt16.toNat_ofNat_of_lt' fits, digits]
          exact ⟨congrArg (low :: high :: ·) spelt, rfl⟩

theorem units (count : Nat) : (Reader.units count).Spells fun list front =>
    front = Encoding.units list ∧ list.length = count := by
  refine (bytes (2 * count)).map Reader.pairUp ?_
  rintro data front ⟨rfl, even⟩
  obtain ⟨spelt, length⟩ := units_pairUp even
  exact ⟨spelt.symm, length⟩

theorem chatText : Reader.chatText.Spells fun text front =>
    Body.sentText text = text ∧ front = Encoding.counted (Body.textUnits text) := by
  refine word8.bind_eq fun count => position_bind fun offset => (units count.toNat).bind ?_
  rintro found behind ⟨rfl, length⟩
  split
  · next chars decoded =>
      have same := Text.utf16_of_ofUtf16? decoded
      have fits : (Text.utf16 chars).length ≤ Body.mostUnits := by
        rw [same, length]
        exact Nat.le_of_lt_succ count.toNat_lt
      have whole : Body.sentText (String.ofList chars) = String.ofList chars :=
        Body.sentText_of_fits (by rw [String.toList_ofList]; exact fits)
      refine pure ⟨whole, ?_⟩
      rw [Body.textUnits_eq_sentText, whole, String.toList_ofList, same, Encoding.counted, length,
        UInt8.ofNat_toNat, List.append_nil, List.singleton_append]
  · exact throw _

theorem sizedBytes : Reader.sizedBytes.Spells fun data front =>
    data.length < 2 ^ 32 ∧ front = Encoding.word32 (UInt32.ofNat data.length) ++ data := by
  refine word32.bind_eq fun length => (bytes length.toNat).mono ?_
  rintro data back ⟨rfl, size⟩
  rw [size, UInt32.ofNat_toNat]
  exact ⟨length.toNat_lt, rfl⟩

end Spells

end MatchTape.Packet.Reader
