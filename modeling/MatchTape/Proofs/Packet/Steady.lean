import MatchTape.Proofs.Packet.Reads

/-!
# Readers and input that goes on

What a steady reader makes of its input can be said of the input's front part alone: it
takes a front part, whatever follows; or it refuses the input for good, with the same
fault for every input that goes on; or it asks for more and says where the input ended.
Readers that are joined from steady ones are steady, and so is the reader of packets.
-/

namespace MatchTape.Packet

/-- Where a fault says that the input ended: a place, how many bytes were needed from
there on, and how many there were. -/
def Fault.shortage? : Fault → Option (Nat × Nat × Nat)
  | shortField _ offset needed available | truncated offset needed available =>
      some (offset, needed, available)
  | _ => none

namespace Reader

/-- What a reader that stands at a place makes of its input. -/
inductive Outcome {α : Type} (reader : Reader α) (position : Nat) (input : List UInt8) : Prop where
  | taken (front rest : List UInt8) (value : α) (split : input = front ++ rest)
      (reads : ∀ other, reader ⟨front ++ other, position⟩ =
        .ok value ⟨other, position + front.length⟩)
  | refused (fault : Fault) (final : fault.shortage? = none)
      (fails : ∀ more, ∃ stopped, reader ⟨input ++ more, position⟩ = .error fault stopped)
  | short (fault : Fault) (stopped : Cursor) (offset needed available : Nat)
      (wants : fault.shortage? = some (offset, needed, available))
      (ends : offset + available = position + input.length) (lacks : available < needed)
      (fails : reader ⟨input, position⟩ = .error fault stopped)

def Steady {α : Type} (reader : Reader α) : Prop :=
  ∀ position input, Outcome reader position input

/-- The reader is steady and takes this many bytes whenever it takes any. -/
structure Fixed {α : Type} (reader : Reader α) (count : Nat) : Prop where
  steady : reader.Steady
  moves : ∀ input position value after, reader ⟨input, position⟩ = .ok value after →
    after.position = position + count

def AtLeast {α : Type} (reader : Reader α) (count : Nat) : Prop :=
  ∀ input position value after, reader ⟨input, position⟩ = .ok value after →
    position + count ≤ after.position

theorem run_bind {α β : Type} (reader : Reader α) (next : α → Reader β) (cursor : Cursor) :
    (reader >>= next) cursor =
      match reader cursor with
      | .ok value after => next value after
      | .error fault after => .error fault after := by
  change EStateM.bind reader next cursor = _
  rw [EStateM.bind]
  cases reader cursor <;> rfl

theorem bind_of_error {α β : Type} {reader : Reader α} {next : α → Reader β}
    {cursor stopped : Cursor} {fault : Fault} (failed : reader cursor = .error fault stopped) :
    (reader >>= next) cursor = .error fault stopped := by
  rw [run_bind, failed]

namespace Steady

variable {α β : Type} {reader : Reader α} {next : α → Reader β}

/-- What a steady reader has taken it takes from every input that begins with it. -/
theorem of_ok (steady : reader.Steady) {input : List UInt8} {position : Nat} {value : α}
    {after : Cursor} (read : reader ⟨input, position⟩ = .ok value after) :
    ∃ front rest, input = front ++ rest ∧ after = ⟨rest, position + front.length⟩ ∧
      ∀ other, reader ⟨front ++ other, position⟩ = .ok value ⟨other, position + front.length⟩ := by
  cases steady position input with
  | taken front rest found split reads =>
      rw [split, reads] at read
      cases read
      exact ⟨front, rest, split, rfl, reads⟩
  | refused fault final fails =>
      obtain ⟨stopped, fails⟩ := fails []
      rw [List.append_nil, read] at fails
      cases fails
  | short fault stopped offset needed available wants ends lacks fails =>
      rw [read] at fails
      cases fails

/-! ## Joining readers -/

theorem pure (value : α) : (Pure.pure value : Reader α).Steady :=
  fun _ input => .taken [] input value rfl fun _ => rfl

theorem throw {fault : Fault} (final : fault.shortage? = none) :
    (MonadExcept.throw fault : Reader α).Steady :=
  fun _ _ => .refused fault final fun _ => ⟨_, rfl⟩

theorem bind (first : reader.Steady) (second : ∀ value, (next value).Steady) :
    (reader >>= next).Steady := by
  intro position input
  cases first position input with
  | taken front rest value split reads =>
      subst split
      cases second value (position + front.length) rest with
      | taken middle rest result split readsMore =>
          refine .taken (front ++ middle) rest result (by rw [split, List.append_assoc]) ?_
          intro other
          rw [run_bind, List.append_assoc, reads, List.length_append, ← Nat.add_assoc]
          exact readsMore other
      | refused fault final fails =>
          refine .refused fault final fun more => ?_
          rw [run_bind, List.append_assoc, reads]
          exact fails more
      | short fault stopped offset needed available wants ends lacks fails =>
          refine .short fault stopped offset needed available wants ?_ lacks ?_
          · rw [ends, List.length_append, Nat.add_assoc]
          · rw [run_bind, reads]
            exact fails
  | refused fault final fails =>
      refine .refused fault final fun more => ?_
      obtain ⟨stopped, fails⟩ := fails more
      exact ⟨stopped, bind_of_error fails⟩
  | short fault stopped offset needed available wants ends lacks fails =>
      exact .short fault stopped offset needed available wants ends lacks (bind_of_error fails)

theorem map (first : reader.Steady) (f : α → β) : (do return f (← reader)).Steady :=
  first.bind fun value => pure (f value)

/-- A reader may depend on where it stands. -/
theorem position_bind {next : Nat → Reader β} (second : ∀ position, (next position).Steady) :
    (Reader.position >>= next).Steady := by
  intro position input
  cases second position position input with
  | taken front rest value split reads => exact .taken front rest value split reads
  | refused fault final fails => exact .refused fault final fails
  | short fault stopped offset needed available wants ends lacks fails =>
      exact .short fault stopped offset needed available wants ends lacks fails

/-- A reader may ask first for as many bytes as it takes. -/
theorem require_bind {count : Nat} {next : Unit → Reader β} (second : (next ()).Fixed count) :
    (Reader.require count >>= next).Steady := by
  have passed : ∀ input position, count ≤ input.length →
      (Reader.require count >>= next) ⟨input, position⟩ = next () ⟨input, position⟩ := by
    intro input position enough
    rw [run_bind, Reader.require, if_pos (List.length_take_of_le enough)]
  intro position input
  rcases Nat.lt_or_ge input.length count with few | enough
  · have stopped : ¬ (input.take count).length = count := by
      rw [List.length_take]
      omega
    refine .short (.truncated position count input.length) ⟨input, position⟩ _ _ _ rfl rfl few ?_
    rw [run_bind, Reader.require, if_neg stopped]
    rfl
  · cases second.steady position input with
    | taken front rest value split reads =>
        have size : front.length = count :=
          Nat.add_left_cancel (second.moves _ _ _ _ (reads rest))
        refine .taken front rest value split fun other => ?_
        rw [passed _ _ (by rw [List.length_append, size]; exact Nat.le_add_right _ _)]
        exact reads other
    | refused fault final fails =>
        refine .refused fault final fun more => ?_
        rw [passed _ _ (by rw [List.length_append]; omega)]
        exact fails more
    | short fault stopped offset needed available wants ends lacks fails =>
        refine .short fault stopped offset needed available wants ends lacks ?_
        rw [passed _ _ enough]
        exact fails

/-! ## Bytes and words -/

theorem bytes (count : Nat) : (Reader.bytes count).Steady := by
  intro position input
  rcases Nat.lt_or_ge input.length count with few | enough
  · have stopped : ¬ (input.take count).length = count := by
      rw [List.length_take]
      omega
    refine .short (.truncated position count input.length) ⟨input, position⟩ _ _ _ rfl rfl few ?_
    simp only [Reader.bytes, if_neg stopped, Cursor.remaining]
  · have whole := Reads.bytes (input.take count)
    rw [List.length_take_of_le enough] at whole
    exact .taken (input.take count) (input.drop count) _ (List.take_append_drop _ _).symm
      fun other => whole other position

end Steady

namespace Fixed

variable {α β : Type} {reader : Reader α} {next : α → Reader β} {first second : Nat}

theorem pure (value : α) : (Pure.pure value : Reader α).Fixed 0 where
  steady := Steady.pure value
  moves := by
    intro input position found after read
    cases read
    rfl

theorem bind (front : reader.Fixed first) (back : ∀ value, (next value).Fixed second) :
    (reader >>= next).Fixed (first + second) where
  steady := front.steady.bind fun value => (back value).steady
  moves := by
    intro input position result after read
    rw [run_bind] at read
    cases middle : reader ⟨input, position⟩ with
    | error fault stopped =>
        rw [middle] at read
        cases read
    | ok value between =>
        rw [middle] at read
        rw [(back value).moves _ _ _ _ read, front.moves _ _ _ _ middle, Nat.add_assoc]

theorem throw {fault : Fault} (final : fault.shortage? = none) (count : Nat) :
    (MonadExcept.throw fault : Reader α).Fixed count where
  steady := Steady.throw final
  moves := by
    intro input position value after read
    cases read

theorem bind_zero (front : reader.Fixed first) (back : ∀ value, (next value).Fixed 0) :
    (reader >>= next).Fixed first :=
  front.bind back

theorem map (front : reader.Fixed first) (f : α → β) : (do return f (← reader)).Fixed first :=
  front.bind_zero fun value => pure (f value)

theorem foldlM {ι : Type} {step : α → ι → Reader α} {size : ι → Nat}
    (one : ∀ found item, (step found item).Fixed (size item)) (items : List ι) (found : α) :
    (items.foldlM step found).Fixed (total (items.map size)) := by
  induction items generalizing found with
  | nil => exact pure found
  | cons item items ih => exact (one found item).bind ih

theorem position_bind {next : Nat → Reader β} (second : ∀ position, (next position).Fixed first) :
    (Reader.position >>= next).Fixed first where
  steady := Steady.position_bind fun position => (second position).steady
  moves := fun input position => (second position).moves input position

theorem atLeast (fixed : reader.Fixed first) : reader.AtLeast first :=
  fun input position value after read => (fixed.moves input position value after read).ge

theorem bytes (count : Nat) : (Reader.bytes count).Fixed count where
  steady := Steady.bytes count
  moves := by
    intro input position value after read
    simp only [Reader.bytes] at read
    split at read
    · cases read
      rfl
    · cases read

theorem word (width : Nat) : (Reader.word width).Fixed width :=
  (bytes width).map Word.ofBytes

theorem word8 : Reader.word8.Fixed 1 :=
  (word 1).map UInt8.ofNat

theorem word16 : Reader.word16.Fixed 2 :=
  (word 2).map UInt16.ofNat

theorem word32 : Reader.word32.Fixed 4 :=
  (word 4).map UInt32.ofNat

theorem signed32 : Reader.signed32.Fixed 4 :=
  word32.map UInt32.toInt32

theorem real : Reader.real.Fixed 4 :=
  word32.map Binary32.mk

end Fixed

namespace Steady

theorem word8 : Reader.word8.Steady :=
  Fixed.word8.steady

theorem word16 : Reader.word16.Steady :=
  Fixed.word16.steady

theorem word32 : Reader.word32.Steady :=
  Fixed.word32.steady

theorem signed32 : Reader.signed32.Steady :=
  Fixed.signed32.steady

theorem real : Reader.real.Steady :=
  Fixed.real.steady

/-! ## Tagged fields -/

theorem field (tag : Tag) : (Reader.field tag).Steady := by
  intro position input
  cases input with
  | nil =>
      exact .short (.shortField (some tag) position tag.size 0) ⟨[], position⟩ _ _ _ rfl rfl
        (by rw [Tag.size]; omega) rfl
  | cons byte rest =>
      by_cases marked : byte = tag.byte
      · subst marked
        rcases Nat.lt_or_ge rest.length tag.width with few | enough
        · have stopped : ¬ (rest.take tag.width).length = tag.width := by
            rw [List.length_take]
            omega
          refine .short (.shortField (some tag) position tag.size (rest.length + 1))
            ⟨tag.byte :: rest, position⟩ _ _ _ rfl rfl (by rw [Tag.size]; omega) ?_
          simp only [Reader.field, if_true, Reader.anyField, Tag.ofByte?_byte, if_neg stopped,
            Cursor.remaining, List.length_cons]
        · have size := List.length_take_of_le enough
          refine .taken (tag.byte :: rest.take tag.width) (rest.drop tag.width)
            (.ofValue tag (Word.ofBytes (rest.take tag.width))) ?_ fun other => ?_
          · rw [List.cons_append, List.take_append_drop]
          · simp only [List.cons_append, Reader.field, if_true, Reader.anyField, Tag.ofByte?_byte,
              List.take_left' size, List.drop_left' size, size, List.length_cons, Tag.size,
              Nat.add_comm]
      · refine .refused (.violation position (.wrongTag tag byte)) rfl fun more => ?_
        exact ⟨⟨byte :: rest ++ more, position⟩, by
          simp only [Reader.field, List.cons_append, if_neg marked]⟩

end Steady

namespace Fixed

theorem field (tag : Tag) : (Reader.field tag).Fixed tag.size where
  steady := Steady.field tag
  moves := by
    intro input position value after read
    cases input with
    | nil => cases read
    | cons byte rest =>
        by_cases marked : byte = tag.byte
        · subst marked
          simp only [Reader.field, if_true, Reader.anyField, Tag.ofByte?_byte] at read
          split at read
          · cases read
            rfl
          · cases read
        · simp only [Reader.field, if_neg marked] at read
          cases read

theorem byteField (tag : Tag) : (Reader.byteField tag).Fixed tag.size := by
  refine (field tag).bind_zero fun found => ?_
  split
  · exact pure _
  · exact pure _
  · exact pure _
  · exact position_bind fun position => throw rfl 0

theorem serialField : Reader.serialField.Fixed Tag.serial.size :=
  (field .serial).map fun found => UInt16.ofNat found.value

theorem frameField : Reader.frameField.Fixed Tag.frame.size :=
  (field .frame).map fun found => UInt32.ofNat found.value

end Fixed

namespace Steady

/-! ## Texts and data -/

theorem split_at_zero (input : List UInt8) :
    (0 : UInt8) ∉ input ∨ ∃ body rest, input = body ++ 0 :: rest ∧ (0 : UInt8) ∉ body := by
  by_cases member : (0 : UInt8) ∈ input
  · exact .inr (List.eq_append_cons_of_mem member)
  · exact .inl member

theorem terminated : Reader.terminated.Steady := by
  intro position input
  rcases split_at_zero input with plain | ⟨body, rest, rfl, plain⟩
  · have front : input.takeWhile (· != 0) = input :=
      List.takeWhile_eq_self_iff.mpr (Reads.bne_zero plain)
    refine .short (.truncated position (input.length + 1) input.length) ⟨input, position⟩ _ _ _ rfl
      rfl (Nat.lt_succ_self _) ?_
    simp only [Reader.terminated, front, List.drop_length, Cursor.remaining]
  · cases decoded : Text.ofUtf8? body with
    | none =>
        refine .refused (.badText position) rfl fun more =>
          ⟨⟨body ++ 0 :: (rest ++ more), position⟩, ?_⟩
        rw [List.append_assoc, List.cons_append, Reads.run_terminated plain, decoded]
    | some text =>
        refine .taken (body ++ [0]) rest text ?_ fun other => ?_
        · rw [List.append_assoc, List.singleton_append]
        · rw [List.append_assoc, List.singleton_append, Reads.run_terminated plain, decoded,
            List.length_append, List.length_singleton, ← Nat.add_assoc]

theorem units (count : Nat) : (Reader.units count).Steady :=
  (bytes (2 * count)).map Reader.pairUp

theorem chatText : Reader.chatText.Steady := by
  refine word8.bind fun count => position_bind fun offset =>
    (units count.toNat).bind fun found => ?_
  split
  · exact pure _
  · exact throw rfl

theorem sizedBytes : Reader.sizedBytes.Steady :=
  word32.bind fun length => bytes length.toNat

end Steady

namespace AtLeast

variable {α β : Type} {reader : Reader α} {next : α → Reader β} {first second : Nat}

theorem of_steady (steady : reader.Steady) : reader.AtLeast 0 := by
  intro input position value after read
  obtain ⟨front, rest, -, rfl, -⟩ := steady.of_ok read
  exact Nat.le_add_right position front.length

theorem throw (fault : Fault) (count : Nat) :
    (MonadExcept.throw fault : Reader α).AtLeast count := by
  intro input position value after read
  cases read

theorem bind (front : reader.AtLeast first) (back : ∀ value, (next value).AtLeast second) :
    (reader >>= next).AtLeast (first + second) := by
  intro input position result after read
  rw [run_bind] at read
  cases middle : reader ⟨input, position⟩ with
  | error fault stopped =>
      rw [middle] at read
      cases read
  | ok value between =>
      rw [middle] at read
      have moved := front _ _ _ _ middle
      have movedOn := back value _ _ _ _ read
      omega

theorem position_bind {next : Nat → Reader β} (back : ∀ position, (next position).AtLeast second) :
    (Reader.position >>= next).AtLeast second :=
  fun input position => back position input position

theorem mono (most : reader.AtLeast first) (fewer : second ≤ first) : reader.AtLeast second :=
  fun input position value after read =>
    Nat.le_trans (Nat.add_le_add_left fewer position) (most input position value after read)

end AtLeast

end Reader

end MatchTape.Packet
