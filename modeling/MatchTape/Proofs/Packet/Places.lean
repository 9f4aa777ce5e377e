import MatchTape.Proofs.Attempts
import MatchTape.Proofs.Packet.Spelling

/-!
# Where a cursor stands

A packet can be read by any calls in any order, whatever its bytes.  The cursor stays between the
ends of the packet and goes only forward.  A call that fails leaves it where it was, except for one
that asks for a byte under a tag of another width: it is refused behind the field.
-/

namespace MatchTape.Packet

open Attempts

structure Cursor.Inside (input : List UInt8) (cursor : Cursor) : Prop where
  rest_eq : cursor.rest = input.drop cursor.position
  position_le : cursor.position ≤ input.length

theorem Cursor.inside_start (input : List UInt8) : (start input).Inside input :=
  ⟨rfl, Nat.zero_le _⟩

theorem Cursor.Inside.position_add_remaining {input : List UInt8} {cursor : Cursor}
    (inside : cursor.Inside input) : cursor.position + cursor.remaining = input.length := by
  rw [remaining, inside.rest_eq, List.length_drop, Nat.add_sub_cancel' inside.position_le]

namespace Reader

variable {α β : Type} {reader : Reader α} {cursor stopped after : Cursor} {fault : Fault}
  {tag : Tag} {found : Field} {input : List UInt8}

/-! ## Going forward -/

/-- What a steady reader takes lies in front of the cursor. -/
theorem Steady.inside (steady : reader.Steady) {value : α} (inside : cursor.Inside input)
    (read : reader cursor = .ok value after) :
    after.Inside input ∧ cursor.position ≤ after.position := by
  obtain ⟨front, rest, split, rfl, -⟩ := steady.of_ok read
  have unread := inside.rest_eq
  have whole := inside.position_add_remaining
  rw [split] at unread
  rw [Cursor.remaining, split, List.length_append] at whole
  refine ⟨⟨?_, ?_⟩, Nat.le_add_right _ _⟩
  · change rest = input.drop (cursor.position + front.length)
    rw [← List.drop_drop, ← unread, List.drop_left]
  · change cursor.position + front.length ≤ input.length
    omega

/-! ## Staying where it is -/

theorem error_of_map {f : α → β} (failed : (do return f (← reader)) cursor = .error fault stopped) :
    reader cursor = .error fault stopped := by
  rw [run_bind] at failed
  cases first : reader cursor with
  | ok value after =>
      rw [first] at failed
      cases failed
  | error fault between =>
      rw [first] at failed
      cases failed
      rfl

/-- A reader that fails leaves the cursor where it was. -/
def Still (reader : Reader α) : Prop :=
  ∀ cursor fault stopped, reader cursor = .error fault stopped → stopped = cursor

namespace Still

theorem map (still : reader.Still) (f : α → β) : (do return f (← reader)).Still :=
  fun cursor fault stopped failed => still cursor fault stopped (error_of_map failed)

theorem field (tag : Tag) : (Reader.field tag).Still := by
  rintro ⟨rest, position⟩ fault stopped failed
  cases rest with
  | nil =>
      cases failed
      rfl
  | cons byte rest =>
      by_cases marked : byte = tag.byte
      · subst marked
        simp only [Reader.field, if_true, anyField, Tag.ofByte?_byte] at failed
        split at failed
        · cases failed
        · cases failed
          rfl
      · simp only [Reader.field, if_neg marked] at failed
        cases failed
        rfl

theorem serialField : Reader.serialField.Still :=
  (field .serial).map fun found => UInt16.ofNat found.value

theorem frameField : Reader.frameField.Still :=
  (field .frame).map fun found => UInt32.ofNat found.value

theorem bytes (count : Nat) : (Reader.bytes count).Still := by
  intro cursor fault stopped failed
  simp only [Reader.bytes] at failed
  split at failed
  · cases failed
  · cases failed
    rfl

theorem word (width : Nat) : (Reader.word width).Still :=
  (bytes width).map Word.ofBytes

theorem word8 : Reader.word8.Still :=
  (word 1).map UInt8.ofNat

theorem word16 : Reader.word16.Still :=
  (word 2).map UInt16.ofNat

theorem word32 : Reader.word32.Still :=
  (word 4).map UInt32.ofNat

theorem signed32 : Reader.signed32.Still :=
  word32.map UInt32.toInt32

theorem word64 : Reader.word64.Still :=
  (word 8).map UInt64.ofNat

theorem real : Reader.real.Still :=
  word32.map Binary32.mk

theorem terminated : Reader.terminated.Still := by
  intro cursor fault stopped failed
  simp only [Reader.terminated] at failed
  split at failed
  · cases failed
    rfl
  · split at failed
    · cases failed
      rfl
    · cases failed

theorem units (count : Nat) : (Reader.units count).Still :=
  (bytes (2 * count)).map pairUp

end Still

/-! ## Asking for a byte -/

theorem tag_of_field (read : field tag cursor = .ok found after) : found.tag = tag := by
  obtain ⟨front, rest, -, -, tagged, -⟩ :=
    Spells.field tag cursor.rest cursor.position found after read
  exact tagged

theorem position_of_field (read : field tag cursor = .ok found after) :
    after.position = cursor.position + tag.size :=
  (Fixed.field tag).moves cursor.rest cursor.position found after read

theorem byteField_of_field (wide : tag.width ≠ 1) (read : field tag cursor = .ok found after) :
    byteField tag cursor = .error (.violation after.position (.notByteField tag)) after := by
  obtain rfl := tag_of_field read
  rw [byteField, run_bind, read]
  cases found with
  | kind | relay | player => exact absurd rfl wide
  | serial | frame | data => rfl

/-- A byte is refused where it was asked for, or behind a field that holds none. -/
theorem byteField_error (failed : byteField tag cursor = .error fault stopped) :
    stopped = cursor ∨ tag.width ≠ 1 ∧ ∃ found, field tag cursor = .ok found stopped := by
  rw [byteField, run_bind] at failed
  cases first : field tag cursor with
  | error fault between =>
      rw [first] at failed
      cases failed
      exact .inl (Still.field tag cursor _ _ first)
  | ok found after =>
      obtain rfl := tag_of_field first
      rw [first] at failed
      cases found with
      | kind | relay | player => cases failed
      | serial | frame | data =>
          cases failed
          exact .inr ⟨nofun, _, rfl⟩

/-! ## Calls -/

inductive Call where
  | field (tag : Tag)
  | byteField (tag : Tag)
  | serialField
  | frameField
  | word8
  | word16
  | word32
  | signed32
  | word64
  | real
  | bytes (count : Nat)
  | terminated
  | units (count : Nat)
  deriving DecidableEq, Repr

inductive Answer where
  | field (found : Field)
  | word8 (value : UInt8)
  | word16 (value : UInt16)
  | word32 (value : UInt32)
  | signed32 (value : Int32)
  | word64 (value : UInt64)
  | real (value : Binary32)
  | bytes (data : List UInt8)
  | text (text : String)
  | units (found : List UInt16)
  deriving DecidableEq, Repr

namespace Call

def perform : Call → Reader Answer
  | field tag => do return .field (← Reader.field tag)
  | byteField tag => do return .word8 (← Reader.byteField tag)
  | serialField => do return .word16 (← Reader.serialField)
  | frameField => do return .word32 (← Reader.frameField)
  | word8 => do return .word8 (← Reader.word8)
  | word16 => do return .word16 (← Reader.word16)
  | word32 => do return .word32 (← Reader.word32)
  | signed32 => do return .signed32 (← Reader.signed32)
  | word64 => do return .word64 (← Reader.word64)
  | real => do return .real (← Reader.real)
  | bytes count => do return .bytes (← Reader.bytes count)
  | terminated => do return .text (← Reader.terminated)
  | units count => do return .units (← Reader.units count)

/-- The call asks for a byte under a tag of another width, and a whole field of that tag is
there. -/
def Overreads (call : Call) (cursor : Cursor) : Prop :=
  ∃ tag found after, call = byteField tag ∧ tag.width ≠ 1 ∧
    Reader.field tag cursor = .ok found after

theorem steady (call : Call) : call.perform.Steady := by
  cases call with
  | field tag => exact (Fixed.field tag).steady.map Answer.field
  | byteField tag => exact (Fixed.byteField tag).steady.map Answer.word8
  | serialField => exact Fixed.serialField.steady.map Answer.word16
  | frameField => exact Fixed.frameField.steady.map Answer.word32
  | word8 => exact Steady.word8.map Answer.word8
  | word16 => exact Steady.word16.map Answer.word16
  | word32 => exact Steady.word32.map Answer.word32
  | signed32 => exact Steady.signed32.map Answer.signed32
  | word64 => exact ((Steady.bytes 8).map Word.ofBytes |>.map UInt64.ofNat).map Answer.word64
  | real => exact Steady.real.map Answer.real
  | bytes count => exact (Steady.bytes count).map Answer.bytes
  | terminated => exact Steady.terminated.map Answer.text
  | units count => exact (Steady.units count).map Answer.units

/-- Every call but the one for a byte under a tag stays where it is when it fails. -/
theorem still {call : Call} (other : ∀ tag, call ≠ byteField tag) : call.perform.Still := by
  cases call with
  | field tag => exact (Still.field tag).map Answer.field
  | byteField tag => exact absurd rfl (other tag)
  | serialField => exact Still.serialField.map Answer.word16
  | frameField => exact Still.frameField.map Answer.word32
  | word8 => exact Still.word8.map Answer.word8
  | word16 => exact Still.word16.map Answer.word16
  | word32 => exact Still.word32.map Answer.word32
  | signed32 => exact Still.signed32.map Answer.signed32
  | word64 => exact Still.word64.map Answer.word64
  | real => exact Still.real.map Answer.real
  | bytes count => exact (Still.bytes count).map Answer.bytes
  | terminated => exact Still.terminated.map Answer.text
  | units count => exact (Still.units count).map Answer.units

/-- A call that fails has not moved the cursor, or has read over a field that holds no byte. -/
theorem stopped_cases {call : Call} (failed : call.perform cursor = .error fault stopped) :
    stopped = cursor ∨ ∃ tag found, call = byteField tag ∧ tag.width ≠ 1 ∧
      Reader.field tag cursor = .ok found stopped := by
  by_cases asked : ∃ tag, call = byteField tag
  · obtain ⟨tag, rfl⟩ := asked
    rcases byteField_error (error_of_map failed) with unmoved | ⟨wide, found, read⟩
    · exact .inl unmoved
    · exact .inr ⟨tag, found, rfl, wide, read⟩
  · exact .inl (still (fun tag same => asked ⟨tag, same⟩) cursor fault stopped failed)

theorem position_stopped_iff {call : Call} (failed : call.perform cursor = .error fault stopped) :
    stopped.position = cursor.position ↔ ¬ call.Overreads cursor := by
  constructor
  · rintro unmoved ⟨tag, found, after, rfl, wide, read⟩
    have moved := position_of_field read
    have refused : Reader.byteField tag cursor = .error fault stopped := error_of_map failed
    rw [byteField_of_field wide read] at refused
    cases refused
    rw [unmoved, Tag.size] at moved
    omega
  · intro kept
    rcases stopped_cases failed with rfl | ⟨tag, found, asked, wide, read⟩
    · rfl
    · exact absurd ⟨tag, found, stopped, asked, wide, read⟩ kept

/-- No call takes the cursor out of the bytes, or back. -/
theorem inside_left (call : Call) (inside : cursor.Inside input) :
    (left call.perform cursor).Inside input ∧
      cursor.position ≤ (left call.perform cursor).position := by
  cases done : call.perform cursor with
  | ok answer after =>
      rw [left_of_ok done]
      exact call.steady.inside inside done
  | error fault stopped =>
      rw [left_of_error done]
      rcases stopped_cases done with rfl | ⟨tag, found, -, -, read⟩
      · exact ⟨inside, Nat.le_refl _⟩
      · exact (Fixed.field tag).steady.inside inside read

theorem inside_final (calls : List Call) (inside : cursor.Inside input) :
    (final perform calls cursor).Inside input ∧
      cursor.position ≤ (final perform calls cursor).position := by
  refine final_induction (motive := fun there : Cursor => there.Inside input ∧
    cursor.position ≤ there.position) ?_ calls ⟨inside, Nat.le_refl _⟩
  rintro call there ⟨inside, forward⟩
  obtain ⟨stays, onward⟩ := inside_left call inside
  exact ⟨stays, Nat.le_trans forward onward⟩

/-- Whatever was asked of a packet, its cursor stands between its ends, and goes only forward from
there.  A call that fails leaves it where it was if and only if it does not read over a field: only
a call for a byte does, under the tag of a whole field that holds none. -/
theorem unmoved_iff_not_overreads (input : List UInt8) (calls : List Call) :
    let there := final perform calls (Cursor.start input)
    there.position ≤ input.length ∧ there.position + there.remaining = input.length ∧
      (∀ more, there.position ≤ (final perform more there).position) ∧
      ∀ call fault, outcome (perform call) there = .error fault →
        ((left (perform call) there).position = there.position ↔ ¬ call.Overreads there) := by
  intro there
  obtain ⟨inside, -⟩ := inside_final calls (Cursor.inside_start input)
  refine ⟨inside.position_le, inside.position_add_remaining,
    fun more => (inside_final more inside).2, fun call fault failed => ?_⟩
  cases done : call.perform there with
  | ok answer after =>
      rw [outcome_of_ok done] at failed
      cases failed
  | error fault stopped =>
      rw [left_of_error done]
      exact position_stopped_iff done

/-- A call for a byte where a serial number stands fails behind the three bytes of that field. -/
theorem byteField_over_serial :
    let there := Cursor.start [67, 255, 255]
    outcome (perform (byteField .serial)) there =
        .error (.violation 3 (.notByteField .serial)) ∧
      there.position = 0 ∧ (left (perform (byteField .serial)) there).position = 3 :=
  ⟨rfl, rfl, rfl⟩

end Call

end Reader

end MatchTape.Packet
