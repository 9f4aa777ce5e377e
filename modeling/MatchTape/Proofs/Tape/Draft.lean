import MatchTape.Proofs.Record.MatchSheet
import MatchTape.Proofs.Tape.Cursor
import MatchTape.Proofs.Tape.Packets
import MatchTape.Tape.Draft

/-!
# Drafts and the recordings they become

A draft holds the packets of the batches it has accepted, whose frames ascend.  The
finished recording opens with the sheet of the draft and goes on with these packets, so
the accepted batches are read back from it.
-/

namespace MatchTape.Tape

open Packet Record

/-- The rules by which a draft accepts a batch, whatever came before it. -/
structure Batch.Accepted (batch : Batch) : Prop where
  filled : batch.commands ≠ []
  few : batch.commands.length < 2 ^ 16
  kept : ∀ command ∈ batch.commands, strays batch.frame command = false
  encodable : ∀ command ∈ batch.commands, ∀ message ∈ command.message?,
    message.isEncodable = true
  plain : ∀ command ∈ batch.commands, command.kind ≠ .frameInfo

/-- An accepted batch can be read back if the packets of its commands can. -/
theorem Batch.Accepted.sound {batch : Batch} (accepted : batch.Accepted)
    (fits : ∀ command ∈ batch.commands, command.body.Fits)
    (inRange : ∀ command ∈ batch.commands, command.body.InRange) : batch.Sound :=
  ⟨accepted.filled, accepted.few, accepted.kept, fits, inRange⟩

namespace Draft

variable {draft after : Draft} {batch : Batch} {batches : List Batch}

/-! ## Adding batches -/

theorem accepted_of_objection?_eq_none (filled : batch.commands ≠ [])
    (free : draft.objection? batch = none) :
    (∀ last ∈ draft.lastFrame, last < batch.frame) ∧ batch.Accepted := by
  unfold objection? at free
  split at free
  · cases free
  · next later =>
      split at free
      · cases free
      · next few =>
          split at free
          · cases free
          · next kept =>
              split at free
              · cases free
              · next encodable =>
                  split at free
                  · cases free
                  · next plain =>
                      refine ⟨?_, filled, Nat.lt_succ_of_le (Nat.not_lt.mp few), ?_, ?_, ?_⟩
                      · intro last known
                        rw [Option.mem_def.mp known] at later
                        simpa using later
                      · intro command member
                        simpa using List.find?_eq_none.mp kept command member
                      · intro command member message found
                        have listed := List.mem_filterMap.mpr ⟨command, member, found⟩
                        simpa using List.find?_eq_none.mp encodable message listed
                      · intro command member same
                        exact plain (List.any_eq_true.mpr ⟨command, member, beq_iff_eq.mpr same⟩)

/-- The draft holds the packets of batches that it has accepted in ascending order. -/
structure Holds (draft : Draft) (batches : List Batch) : Prop where
  packets : draft.packets.toList = batches.flatMap Batch.bytes
  lastFrame : draft.lastFrame = batches.getLast?.map Batch.frame
  ascending : batches.Pairwise fun first second => first.frame < second.frame
  accepted : ∀ batch ∈ batches, batch.Accepted

theorem holds_begin (sheet : MatchSheet) : (begin sheet).Holds [] :=
  ⟨rfl, rfl, List.Pairwise.nil, fun _ member => absurd member List.not_mem_nil⟩

theorem Holds.later (holds : draft.Holds batches) {frame : UInt32}
    (after : ∀ last ∈ draft.lastFrame, last < frame) : ∀ batch ∈ batches, batch.frame < frame := by
  have ascending := holds.ascending
  have known := holds.lastFrame
  rcases List.eq_nil_or_concat batches with rfl | ⟨earlier, last, rfl⟩
  · exact fun _ member => absurd member List.not_mem_nil
  · rw [List.concat_eq_append] at ascending known ⊢
    have final : last.frame < frame :=
      after last.frame (by rw [known, List.getLast?_concat]; rfl)
    intro batch member
    rcases List.mem_append.mp member with member | member
    · have before := (List.pairwise_append.mp ascending).2.2 batch member last
        List.mem_cons_self
      exact UInt32.lt_trans before final
    · rw [List.mem_singleton.mp member]
      exact final

/-- A batch that is added is held behind the others, unless it has no commands. -/
theorem Holds.add (holds : draft.Holds batches) (added : add batch draft = .ok () after) :
    after.Holds (batches ++ [batch].filter (!·.commands.isEmpty)) ∧ after.sheet = draft.sheet := by
  unfold Draft.add at added
  split at added
  · next empty =>
      cases added
      rw [List.filter_cons_of_neg (by simp [empty]), List.filter_nil, List.append_nil]
      exact ⟨holds, rfl⟩
  · next nonempty =>
      have filled : batch.commands ≠ [] := by simpa using nonempty
      split at added
      · cases added
      · next free =>
          cases added
          obtain ⟨later, accepted⟩ := accepted_of_objection?_eq_none filled free
          rw [List.filter_cons_of_pos (by simpa using nonempty), List.filter_nil]
          refine ⟨⟨?_, ?_, ?_, ?_⟩, rfl⟩
          · rw [Array.toList_appendList, holds.packets, List.flatMap_append,
              List.flatMap_singleton]
          · rw [List.getLast?_concat]
            rfl
          · refine List.pairwise_append.mpr ⟨holds.ascending, List.pairwise_singleton _ _, ?_⟩
            intro other member last same
            rw [List.mem_singleton.mp same]
            exact holds.later later other member
          · intro other member
            rcases List.mem_append.mp member with member | member
            · exact holds.accepted other member
            · rw [List.mem_singleton.mp member]
              exact accepted

/-! ## Finishing -/

theorem ofBytes_sheet {sheet : MatchSheet} (room : sheet.bytes.length < 2 ^ 32) (name : String)
    (packets : List UInt8) :
    ∃ tape, ofBytes name (magic ++ version :: Encoding.word32 (UInt32.ofNat sheet.bytes.length) ++
        sheet.bytes ++ packets) = .ok tape ∧
      tape.sheet = sheet ∧ tape.lastFrame = none ∧ tape.rest = packets := by
  obtain ⟨l0, l1, l2, l3, digits⟩ : ∃ l0 l1 l2 l3,
      Encoding.word32 (UInt32.ofNat sheet.bytes.length) = [l0, l1, l2, l3] :=
    ⟨_, _, _, _, rfl⟩
  have length : Word.ofBytes [l0, l1, l2, l3] = sheet.bytes.length := by
    rw [← digits, Encoding.word32, UInt32.toNat_ofNat_of_lt' room, Word.ofBytes_toBytes room]
  have letters : magic.length = 4 := by decide
  have size : (magic ++ version :: [l0, l1, l2, l3]).length = preambleSize := by
    rw [List.length_append, letters]
    rfl
  have found : MatchSheet.ofBytes? sheet.bytes = some sheet :=
    MatchSheet.ofBytes?_bytes (Nat.lt_trans room (by decide))
  rw [digits, List.append_assoc]
  have introduced : Introduced
      (magic ++ version :: [l0, l1, l2, l3] ++ (sheet.bytes ++ packets)) sheet.bytes.length
      sheet := by
    refine ⟨⟨l0, l1, l2, l3, List.take_left' size, length⟩, ?_, ?_⟩
    · simp only [List.length_append, size]
      omega
    · rw [List.drop_left' size, List.take_left, found]
  have unread : (magic ++ version :: [l0, l1, l2, l3] ++ (sheet.bytes ++ packets)).drop
      (preambleSize + sheet.bytes.length) = packets := by
    rw [← List.drop_drop, List.drop_left' size, List.drop_left]
  exact ⟨_, ofBytes_eq_ok_iff.mpr ⟨_, sheet, introduced, rfl⟩, rfl, rfl, unread⟩

/-- The finished recording opens, with the sheet of the draft and its packets in front. -/
theorem ofBytes_finish (draft : Draft) {frameCount : UInt32}
    (room : { draft.sheet with frameCount }.bytes.length < 2 ^ 32) (name : String) :
    ∃ tape, ofBytes name (draft.finish frameCount) = .ok tape ∧
      tape.sheet = { draft.sheet with frameCount } ∧ tape.lastFrame = none ∧
      tape.rest = draft.packets.toList :=
  ofBytes_sheet room name draft.packets.toList

/-- Recordings of one sheet that are finished with different numbers of frames differ. -/
theorem finish_frameCount_injective {other : Draft} (sheets : other.sheet = draft.sheet)
    {frameCount otherCount : UInt32}
    (same : draft.finish frameCount = other.finish otherCount) : frameCount = otherCount := by
  obtain ⟨front, behind, sheet⟩ := draft.sheet.bytes_frameCount
  let digits (count : UInt32) := (Entry.ofNumber 4 count.toUInt64).flatMap Entry.bytes
  let record (count : UInt32) := front ++ (digits count ++ behind)
  change ∀ count : UInt32, _ = record count at sheet
  have few : ∀ count, (digits count).length ≤ 20 := fun count => Entry.length_ofNumber_le 4 _
  have size : ∀ count, (record count).length =
      front.length + ((digits count).length + behind.length) := fun count => by
    rw [List.length_append, List.length_append]
  simp only [finish, sheets, sheet, List.append_assoc, List.cons_append] at same
  obtain ⟨words, records⟩ := List.append_inj (List.cons.inj (List.append_cancel_left same)).2 rfl
  -- The lengths agree as words of 32 bits, and they differ by less than that.
  have lengths := congrArg Word.ofBytes words
  rw [Encoding.word32, Encoding.word32, Word.ofBytes_toBytes (UInt32.toNat_lt _),
    Word.ofBytes_toBytes (UInt32.toNat_lt _), UInt32.toNat_ofNat', UInt32.toNat_ofNat', size,
    size] at lengths
  have short := few frameCount
  have otherShort := few otherCount
  have equal : (digits frameCount).length = (digits otherCount).length := by omega
  have written := (List.append_inj records (by rw [size, size, equal])).1
  have counts := (List.append_inj (List.append_cancel_left written) equal).1
  exact UInt32.toUInt64_inj.mp (Entry.ofNumber_bytes_injective (by decide) counts)

/-- Batches of a finished recording whose packets can be read back are read from its front,
and the tape waits for the batches behind them. -/
theorem Holds.yields {others : List Batch} (holds : draft.Holds (batches ++ others))
    (fits : ∀ batch ∈ batches, ∀ command ∈ batch.commands, command.body.Fits)
    (inRange : ∀ batch ∈ batches, ∀ command ∈ batch.commands, command.body.InRange)
    {tape : Tape} (fresh : tape.lastFrame = none) (unread : tape.rest = draft.packets.toList) :
    ∃ after, Yields tape (batches.map Batch.sent) after ∧
      after.rest = others.flatMap Batch.bytes ∧
      ∀ last ∈ after.lastFrame, ∀ batch ∈ others, last < batch.frame := by
  obtain ⟨ascending, -, before⟩ := List.pairwise_append.mp holds.ascending
  rw [holds.packets, List.flatMap_append] at unread
  have sound : ∀ batch ∈ batches, batch.Sound := fun batch member =>
    (holds.accepted batch (List.mem_append_left _ member)).sound (fits batch member)
      (inRange batch member)
  have later : ∀ last ∈ tape.lastFrame, ∀ batch ∈ batches, last < batch.frame := by
    intro last known
    rw [fresh] at known
    cases known
  obtain ⟨after, yields, left, frames⟩ := yields_of_rest sound ascending later unread
  refine ⟨after, yields, left, ?_⟩
  intro last known other member
  rcases frames last known with known | ⟨batch, listed, rfl⟩
  · rw [fresh] at known
    cases known
  · exact before batch listed other member

/-- All batches of a finished recording whose packets can be read back are read back. -/
theorem Holds.readsBack (holds : draft.Holds batches)
    (fits : ∀ batch ∈ batches, ∀ command ∈ batch.commands, command.body.Fits)
    (inRange : ∀ batch ∈ batches, ∀ command ∈ batch.commands, command.body.InRange)
    {tape : Tape} (fresh : tape.lastFrame = none) (unread : tape.rest = draft.packets.toList) :
    ReadsBack tape (batches.map Batch.sent) := by
  rw [← List.append_nil batches] at holds
  obtain ⟨after, yields, left, -⟩ := holds.yields fits inRange fresh unread
  exact yields.readsBack (next_of_rest_eq_nil left).1

end Draft

end MatchTape.Tape
