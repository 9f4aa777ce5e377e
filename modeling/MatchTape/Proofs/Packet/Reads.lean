import MatchTape.Packet.Decoding
import MatchTape.Packet.Encoding
import MatchTape.Proofs.Packet.Chat

/-!
# Readers that take exactly the bytes that were written

`Reads` ties a reader to the bytes of one value: whatever follows those bytes and
wherever they stand, the reader takes all of them, nothing more, and gives the
value.  Readers that are joined read bytes that are joined, so that the round trip
of a packet is put together from the round trips of its fields.
-/

namespace MatchTape.Packet

namespace Encoding

@[simp] theorem length_word16 (number : UInt16) : (word16 number).length = 2 :=
  Word.length_toBytes _ _

@[simp] theorem length_word32 (number : UInt32) : (word32 number).length = 4 :=
  Word.length_toBytes _ _

end Encoding

namespace Reader

/-- The reader takes exactly these bytes from the front of any input and gives the value. -/
def Reads {α : Type} (reader : Reader α) (bytes : List UInt8) (value : α) : Prop :=
  ∀ rest position,
    reader ⟨bytes ++ rest, position⟩ = .ok value ⟨rest, position + bytes.length⟩

namespace Reads

variable {α β : Type} {reader : Reader α} {next : α → Reader β}
variable {front back : List UInt8} {value : α} {result : β}

theorem pure (value : α) : (Pure.pure value : Reader α).Reads [] value :=
  fun _ _ => rfl

theorem run_bind (first : reader.Reads front value) (rest : List UInt8) (position : Nat) :
    (reader >>= next) ⟨front ++ rest, position⟩ =
      next value ⟨rest, position + front.length⟩ := by
  change EStateM.bind reader next _ = _
  simp only [EStateM.bind, first rest position]

theorem bind (first : reader.Reads front value) (second : (next value).Reads back result) :
    (reader >>= next).Reads (front ++ back) result := by
  intro rest position
  rw [List.append_assoc, first.run_bind, second, List.length_append, Nat.add_assoc]

theorem bind_nil (first : reader.Reads front value) (second : (next value).Reads [] result) :
    (reader >>= next).Reads front result := by
  have read := first.bind second
  rwa [List.append_nil] at read

theorem map (first : reader.Reads front value) (f : α → β) :
    (do return f (← reader)).Reads front (f value) :=
  first.bind_nil (Reads.pure (f value))

/-- Readers that each take over one item read the bytes of a list of items. -/
theorem foldlM {ι : Type} {step : α → ι → Reader α} {put : α → ι → α}
    {encode : ι → List UInt8}
    (one : ∀ found item, (step found item).Reads (encode item) (put found item))
    (items : List ι) (found : α) :
    (items.foldlM step found).Reads (items.flatMap encode) (items.foldl put found) := by
  induction items generalizing found with
  | nil => exact Reads.pure found
  | cons item items ih =>
      rw [List.foldlM_cons, List.flatMap_cons, List.foldl_cons]
      exact (one found item).bind (ih (put found item))

theorem run_get_bind {next : Cursor → Reader β} (cursor : Cursor) :
    ((get : Reader Cursor) >>= next) cursor = next cursor cursor :=
  rfl

/-- The place where a reader stands does not matter to what it reads. -/
theorem position_bind {next : Nat → Reader β}
    (second : ∀ position, (next position).Reads back result) :
    (Reader.position >>= next).Reads back result :=
  fun rest position => second position rest position

/-- A reader that needs no more bytes than it takes is not stopped by asking for them. -/
theorem require_bind {count : Nat} {next : Unit → Reader β} (enough : count ≤ back.length)
    (second : (next ()).Reads back result) :
    (Reader.require count >>= next).Reads back result := by
  intro rest position
  have taken : ((back ++ rest).take count).length = count := by
    rw [List.length_take, List.length_append]
    omega
  have passed :
      Reader.require count ⟨back ++ rest, position⟩ = .ok () ⟨back ++ rest, position⟩ := by
    rw [Reader.require, if_pos taken]
  change EStateM.bind _ _ _ = _
  simp only [EStateM.bind, passed, second rest position]

/-! ## Bytes and words -/

theorem bytes (data : List UInt8) : (Reader.bytes data.length).Reads data data := by
  intro rest position
  simp [Reader.bytes]

theorem word (width : Nat) {number : Nat} (fits : number < 256 ^ width) :
    (Reader.word width).Reads (Word.toBytes width number) number := by
  have digits := (bytes (Word.toBytes width number)).map Word.ofBytes
  rw [Word.length_toBytes, Word.ofBytes_toBytes fits] at digits
  exact digits

theorem word8 (byte : UInt8) : Reader.word8.Reads [byte] byte := by
  have read : Reader.word8.Reads (Word.toBytes 1 byte.toNat) (UInt8.ofNat byte.toNat) :=
    (word 1 byte.toNat_lt).map UInt8.ofNat
  simpa [Word.toBytes] using read

theorem word16 (number : UInt16) : Reader.word16.Reads (Encoding.word16 number) number := by
  have read : Reader.word16.Reads (Encoding.word16 number) (UInt16.ofNat number.toNat) :=
    (word 2 number.toNat_lt).map UInt16.ofNat
  rwa [UInt16.ofNat_toNat] at read

theorem word32 (number : UInt32) : Reader.word32.Reads (Encoding.word32 number) number := by
  have read : Reader.word32.Reads (Encoding.word32 number) (UInt32.ofNat number.toNat) :=
    (word 4 number.toNat_lt).map UInt32.ofNat
  rwa [UInt32.ofNat_toNat] at read

theorem signed32 (number : Int32) : Reader.signed32.Reads (Encoding.signed32 number) number :=
  (word32 number.toUInt32).map UInt32.toInt32

theorem real (number : Binary32) : Reader.real.Reads (Encoding.real number) number :=
  (word32 number.bits).map Binary32.mk

/-! ## Tagged fields -/

theorem field (field : Field) : (Reader.field field.tag).Reads field.bytes field := by
  intro rest position
  have fits : field.value < 256 ^ field.tag.width := by
    cases field with
    | kind byte => exact byte.toNat_lt
    | relay mask => exact mask.toNat_lt
    | player slot => exact slot.toNat_lt
    | serial number => exact number.toNat_lt
    | frame number => exact number.toNat_lt
    | data => exact Nat.one_pos
  have size : (Word.toBytes field.tag.width field.value).length = field.tag.width :=
    Word.length_toBytes _ _
  have value := Word.ofBytes_toBytes fits
  simp only [Reader.field, Field.bytes, List.cons_append, if_true, Reader.anyField,
    Tag.ofByte?_byte, List.take_left' size, List.drop_left' size, size, value,
    Field.ofValue_value]
  simp [Tag.size, Nat.add_comm]

/-! ## Texts and data -/

theorem bne_zero {bytes : List UInt8} (plain : (0 : UInt8) ∉ bytes) :
    ∀ byte ∈ bytes, (byte != 0) = true := by
  intro byte member
  have nonzero : byte ≠ 0 := fun zero => plain (zero ▸ member)
  simpa using nonzero

/-- What stands in front of the first zero byte is taken for a text. -/
theorem run_terminated {body : List UInt8} (plain : (0 : UInt8) ∉ body) (rest : List UInt8)
    (position : Nat) :
    Reader.terminated ⟨body ++ 0 :: rest, position⟩ =
      match Text.ofUtf8? body with
      | none => .error (.badText position) ⟨body ++ 0 :: rest, position⟩
      | some text => .ok text ⟨rest, position + body.length + 1⟩ := by
  have front : (body ++ 0 :: rest).takeWhile (· != 0) = body := by
    rw [List.takeWhile_append_of_pos (bne_zero plain)]
    simp
  cases found : Text.ofUtf8? body <;> simp only [Reader.terminated, front, List.drop_left, found]

/-- A text without zero bytes is read back up to the zero byte that ends it. -/
theorem terminated {text : String} (plain : (0 : UInt8) ∉ Text.utf8 text) :
    Reader.terminated.Reads (Text.utf8 text ++ [0]) text := by
  intro rest position
  rw [List.append_assoc, List.singleton_append, run_terminated plain, Text.ofUtf8?_utf8,
    List.length_append, List.length_singleton, ← Nat.add_assoc]

theorem pairUp_units (list : List UInt16) : Reader.pairUp (Encoding.units list) = list := by
  induction list with
  | nil => rfl
  | cons unit list ih =>
      have digits : Word.ofBytes (Word.toBytes 2 unit.toNat) = unit.toNat :=
        Word.ofBytes_toBytes unit.toNat_lt
      have spelled : Word.toBytes 2 unit.toNat =
          [UInt8.ofNat unit.toNat, UInt8.ofNat (unit.toNat / 256)] := rfl
      rw [spelled] at digits
      rw [Encoding.units, List.flatMap_cons, spelled, List.cons_append, List.cons_append,
        List.nil_append, Reader.pairUp, digits, UInt16.ofNat_toNat]
      exact congrArg (unit :: ·) ih

theorem length_units (list : List UInt16) : (Encoding.units list).length = 2 * list.length := by
  simp [Encoding.units, List.length_flatMap, List.map_const', Nat.mul_comm]

theorem units (list : List UInt16) :
    (Reader.units list.length).Reads (Encoding.units list) list := by
  have read := (bytes (Encoding.units list)).map Reader.pairUp
  rw [length_units, pairUp_units] at read
  exact read

/-- A chat text of few enough units is read back as a whole. -/
theorem chatText {chars : List Char} (fits : (Text.utf16 chars).length ≤ 255) :
    Reader.chatText.Reads (Encoding.counted (Text.utf16 chars)) (String.ofList chars) := by
  have count : (UInt8.ofNat (Text.utf16 chars).length).toNat = (Text.utf16 chars).length := by
    rw [UInt8.toNat_ofNat']
    omega
  refine (word8 (UInt8.ofNat (Text.utf16 chars).length)).bind (position_bind fun position => ?_)
  rw [count]
  refine (units (Text.utf16 chars)).bind_nil ?_
  rw [Text.ofUtf16?_utf16]
  exact Reads.pure (String.ofList chars)

theorem sizedBytes {data : List UInt8} (fits : data.length < 2 ^ 32) :
    Reader.sizedBytes.Reads (Encoding.word32 (UInt32.ofNat data.length) ++ data) data := by
  refine (word32 (UInt32.ofNat data.length)).bind ?_
  rw [UInt32.toNat_ofNat_of_lt' fits]
  exact bytes data

end Reads

/-- The reader takes exactly these bytes from the front of any input and then refuses
them, for a cause that it places some bytes behind their start. -/
def Refuses {α : Type} (reader : Reader α) (bytes : List UInt8) (skipped : Nat)
    (cause : Violation) : Prop :=
  ∀ rest position,
    reader ⟨bytes ++ rest, position⟩ =
      .error (.violation (position + skipped) cause) ⟨rest, position + bytes.length⟩

namespace Refuses

variable {α β : Type} {reader : Reader α} {next : α → Reader β}
variable {front back : List UInt8} {value : α} {skipped : Nat} {cause : Violation}

theorem bind (first : reader.Refuses front skipped cause) :
    (reader >>= next).Refuses front skipped cause := by
  intro rest position
  change EStateM.bind reader next _ = _
  simp only [EStateM.bind, first rest position]

theorem behind (first : reader.Reads front value)
    (second : (next value).Refuses back skipped cause) :
    (reader >>= next).Refuses (front ++ back) (front.length + skipped) cause := by
  intro rest position
  rw [List.append_assoc, first.run_bind, second, List.length_append, Nat.add_assoc,
    Nat.add_assoc]

end Refuses

end Reader

end MatchTape.Packet
