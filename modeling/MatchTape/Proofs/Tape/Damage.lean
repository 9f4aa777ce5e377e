import MatchTape.Proofs.Packet.Lengths
import MatchTape.Proofs.Packet.Respelling
import MatchTape.Proofs.Tape.Cursor
import MatchTape.Proofs.Tape.Offers
import MatchTape.Proofs.Tape.Packing

/-!
# Damaged recordings

A recording of which the end is missing opens as the whole one does, as long as its sheet is
there.  The batches that end in front of the cut are read from it as they are, and no part of any
other: unless the cut stands right behind one of them, reading goes on to fail, because commands or
parts of a packet are missing.

If the opening of one batch announces another number of commands, the batches in front of it are
read as they are, and reading fails at that batch or at the next.
-/

namespace MatchTape.Tape

open Packet Record Attempts
open Command (IsPacket ArePackets)

variable {tape short : Tape} {batch : Batch} {batches : List Batch} {frame : UInt32}
  {count : UInt16} {front packets rest : List UInt8} {commands : List Command}

/-! ## Where the bytes end -/

/-- What a tape that is cut short fails with: commands that are announced do not follow, or a
packet asks for more bytes than there are. -/
def wantsMore : Failure → Bool
  | .corrupt _ (.shortBatch _ _ _) => true
  | .badPacket _ fault => fault.shortage?.isSome
  | _ => false

theorem packetAt_take {command : Command} (packet : command.IsPacket front) {count : Nat}
    (cut : count < front.length) (offset : Nat) :
    ∃ failure, packetAt offset (front.take count) = .error failure ∧ wantsMore failure = true := by
  obtain ⟨fault, failed, short⟩ := Command.decode_take_of_lt packet.found cut
  exact ⟨.badPacket offset fault, by rw [packetAt, failed], short⟩

/-- Commands are not read when bytes of their packets are missing. -/
theorem readCommands_take (all : ArePackets commands packets)
    (kept : ∀ command ∈ commands, strays frame command = false) {count : Nat}
    (cut : count < packets.length) (offset : Nat) (found : Array Command) :
    ∃ failure, readCommands frame commands.length offset (packets.take count) found =
      .error failure ∧ wantsMore failure = true := by
  induction all generalizing count offset found with
  | nothing => exact absurd cut (Nat.not_lt_zero count)
  | @packet command commands front rest first others ih =>
      obtain ⟨belongs, keptOthers⟩ := List.forall_mem_cons.mp kept
      rw [List.length_cons]
      rcases Nat.eq_zero_or_pos count with rfl | positive
      · exact ⟨_, rfl, rfl⟩
      · rcases Nat.lt_or_ge count front.length with inside | behind
        · obtain ⟨failure, failed, wants⟩ := packetAt_take first inside offset
          have filled : (front.take count).isEmpty = false := by
            rw [List.isEmpty_eq_false_iff, ← List.length_pos_iff, List.length_take]
            omega
          rw [List.take_append_of_le_length (Nat.le_of_lt inside), readCommands, filled, failed]
          exact ⟨failure, rfl, wants⟩
        · rw [List.take_append, List.take_of_length_le behind, readCommands_succ first belongs]
          rw [List.length_append] at cut
          exact ih keptOthers (by omega) _ _

theorem Batch.Packed.next_take (packed : batch.Packed front packets) {count : Nat}
    (positive : 0 < count) (cut : count < (front ++ packets).length)
    (unread : tape.rest = (front ++ packets).take count)
    (later : ∀ last ∈ tape.lastFrame, last < batch.frame) :
    ∃ failure, Tape.next tape = .error failure tape ∧ wantsMore failure = true := by
  have unended : tape.isExhausted = false := by
    rw [isExhausted, unread, List.isEmpty_eq_false_iff, ← List.length_pos_iff, List.length_take]
    omega
  suffices ahead : ∃ failure, tape.batchAhead = .error failure ∧ wantsMore failure = true by
    obtain ⟨failure, failed, wants⟩ := ahead
    exact ⟨failure, by rw [Tape.next, unended, failed]; rfl, wants⟩
  rcases Nat.lt_or_ge count front.length with inside | behind
  · obtain ⟨header, -, packet⟩ := packed.opens
    obtain ⟨failure, failed, wants⟩ := packetAt_take packet inside tape.position
    have unopened : tape.opening = .error failure := by
      rw [Tape.opening, unread, List.take_append_of_le_length (Nat.le_of_lt inside), failed]
    exact ⟨failure, by rw [batchAhead, unopened]; rfl, wants⟩
  · rw [List.take_append, List.take_of_length_le behind] at unread
    rw [List.length_append] at cut
    have missing : count - front.length < packets.length := by omega
    obtain ⟨failure, failed, wants⟩ := readCommands_take packed.commands packed.kept missing
      (tape.position + front.length) #[]
    refine ⟨failure, ?_, wants⟩
    rw [batchAhead_of_isOpening packed.opens unread later, packed.toNat_count, failed]
    rfl

/-! ## Cutting -/

/-- The batches on a tape are those that end in front of a place or at it, and others. -/
theorem ReadsBack.yields_upTo (reads : ReadsBack tape batches) {cut : Nat}
    (start : tape.position ≤ cut) :
    ∃ before behind full, batches = before ++ behind ∧ Yields tape before full ∧
      ReadsBack full behind ∧ full.position ≤ cut ∧
      ∀ batch after, next full = .ok (some batch) after → cut < after.position := by
  induction reads with
  | @ended tape after read =>
      refine ⟨[], [], tape, rfl, .nothing tape, .ended read, start, fun batch later found => ?_⟩
      rw [read] at found
      cases found
  | @batch tape after batch batches read others ih =>
      rcases Nat.lt_or_ge cut after.position with past | within
      · refine ⟨[], _, tape, rfl, .nothing tape, .batch read others, start, ?_⟩
        intro first later found
        rw [read] at found
        cases found
        exact past
      · obtain ⟨before, behind, full, rfl, yields, reads, stop, next⟩ := ih within
        exact ⟨batch :: before, behind, full, rfl, .batch read yields, reads, stop, next⟩

/-- From a tape of which the end is missing, the batches are read that end in front of the cut or
at it.  Then either nothing is left, or reading fails for want of bytes. -/
theorem ReadsBack.readings_take (reads : ReadsBack tape batches) {room : Nat}
    (inside : room ≤ tape.rest.length) (unread : short.rest = tape.rest.take room)
    (same : short.lastFrame = tape.lastFrame) :
    ∃ before behind full answer, batches = before ++ behind ∧ Yields tape before full ∧
      full.position ≤ tape.position + room ∧
      (∀ batch after, next full = .ok (some batch) after →
        tape.position + room < after.position) ∧
      (∀ calls, short.readings (before.length + calls) =
        before.map (fun batch => .ok (some batch)) ++ List.replicate calls answer) ∧
      (full.position = tape.position + room → answer = .ok none) ∧
      (full.position < tape.position + room →
        ∃ failure, answer = .error failure ∧ wantsMore failure = true) := by
  obtain ⟨before, behind, full, rfl, yields, left, stop, beyond⟩ :=
    reads.yields_upTo (Nat.le_add_right tape.position room)
  obtain ⟨front, whole, place, again⟩ := yields.again
  have reached : front.length ≤ room := by omega
  rw [whole, List.take_append, List.take_of_length_le reached] at unread
  rw [whole, List.length_append] at inside
  obtain ⟨stopped, yieldsShort, rest, last, -⟩ := again short _ unread same
  suffices answers : ∃ answer, (∀ calls, stopped.readings calls = List.replicate calls answer) ∧
      (full.position = tape.position + room → answer = .ok none) ∧
      (full.position < tape.position + room →
        ∃ failure, answer = .error failure ∧ wantsMore failure = true) by
    obtain ⟨answer, answered, atEnd, inBatch⟩ := answers
    refine ⟨before, behind, full, answer, rfl, yields, stop, beyond, fun calls => ?_, atEnd,
      inBatch⟩
    rw [yieldsShort.readings, answered]
  rcases Nat.eq_or_lt_of_le stop with ended | torn
  · have exhausted : next stopped = .ok none stopped := by
      have nothing : room - front.length = 0 := by omega
      rw [nothing, List.take_zero] at rest
      rw [next, isExhausted, rest]
      rfl
    exact ⟨.ok none, readings_of_none exhausted, fun _ => rfl,
      fun more => absurd ended (Nat.ne_of_lt more)⟩
  · cases left with
    | ended read =>
        have exhausted := (isExhausted_of_next read).1
        rw [isExhausted, List.isEmpty_iff] at exhausted
        rw [exhausted, List.length_nil] at inside
        omega
    | @batch _ after batch others read reads =>
        obtain ⟨opening, packets, packed, ahead, later, moved⟩ := packed_of_next read
        have ends : after.position = full.position + (opening.length + packets.length) := by
          rw [moved]
          rfl
        have past := beyond batch after read
        have cut : room - front.length < (opening ++ packets).length := by
          rw [List.length_append]
          omega
        rw [ahead, ← List.append_assoc, List.take_append_of_le_length (Nat.le_of_lt cut)] at rest
        obtain ⟨failure, failed, wants⟩ :=
          packed.next_take (by omega) cut rest (last ▸ later)
        exact ⟨.error failure, readings_of_error failed,
          fun whole => absurd whole (Nat.ne_of_lt torn), fun _ => ⟨failure, rfl, wants⟩⟩

/-! ## Wrong counts -/

/-- Only messages have packets other than those that are written. -/
theorem IsPacket.eq_bytes {command : Command} (packet : command.IsPacket front)
    (plain : command.kind ≠ .game) : front = command.bytes := by
  have decoded := packet.found []
  rw [List.append_nil] at decoded
  unfold Command.decode at decoded
  split at decoded
  · next found after read =>
      obtain ⟨rfl, size⟩ := Prod.mk.inj (Except.ok.inj decoded)
      obtain ⟨start, behind, split, rfl, -, -, -, -, spelt⟩ := Command.spells_read _ _ _ _ read
      have whole : start.length = front.length := (Nat.zero_add _).symm.trans size
      have ended : behind = [] := by
        rw [split, List.length_append] at whole
        exact List.eq_nil_of_length_eq_zero (by omega)
      rw [spelt plain, split, ended, List.append_nil]
  · cases decoded

/-- The last two bytes of an opening are the count, and can be replaced by any other. -/
theorem IsOpening.recount (opens : IsOpening frame count front) :
    ∃ fields, front = fields ++ Encoding.word16 count ∧
      fields.length = Kind.frameInfo.headerSize ∧
      ∀ other, IsOpening frame other (fields ++ Encoding.word16 other) := by
  obtain ⟨header, named, packet⟩ := opens
  have plain : Command.kind ⟨header, .frameInfo count⟩ ≠ .game := nofun
  have bytes (count : UInt16) : Command.bytes ⟨header, .frameInfo count⟩ =
      header.bytes .frameInfo ++ Encoding.word16 count := rfl
  have sent (count : UInt16) : Command.sent ⟨header, .frameInfo count⟩ =
      ⟨header, .frameInfo count⟩ := rfl
  refine ⟨header.bytes .frameInfo, (IsPacket.eq_bytes packet plain).trans (bytes count),
    Header.length_bytes _ _, fun other => ⟨header, named, ?_⟩⟩
  have fits : Body.Fits (.frameInfo other) := trivial
  have inRange : Body.InRange (.frameInfo other) := trivial
  have packed := @isPacket_bytes ⟨header, .frameInfo other⟩ fits inRange
  rwa [bytes, sent] at packed

def overwrite (contents : List UInt8) (place : Nat) (number : UInt16) : List UInt8 :=
  contents.take place ++ (Encoding.word16 number ++ contents.drop (place + 2))

theorem overwrite_append (front behind : List UInt8) (written number : UInt16) :
    overwrite (front ++ (Encoding.word16 written ++ behind)) front.length number =
      front ++ (Encoding.word16 number ++ behind) := by
  rw [overwrite, List.take_left, ← List.drop_drop, List.drop_left,
    List.drop_left' (Encoding.length_word16 written)]

theorem next_of_isPacket {command : Command} (packet : command.IsPacket front)
    (plain : command.kind ≠ .frameInfo) (unread : tape.rest = front ++ rest) :
    next tape = .error (.corrupt tape.position (.notBatch command.kind)) tape := by
  have unopened : tape.opening = .error (.corrupt tape.position (.notBatch command.kind)) := by
    rw [opening, unread, packetAt_of_isPacket packet]
    obtain ⟨header, body⟩ := command
    cases body <;> first | rfl | exact absurd rfl plain
  rw [next, isExhausted, unread, packet.isEmpty_append, batchAhead, unopened]
  rfl

/-- Behind an opening that announces too few commands or too many, the batch is read with fewer
commands or not at all, and then there is no batch where one is to begin. -/
theorem Batch.Packed.next_recounted (packed : batch.Packed front packets)
    (plain : ∀ command ∈ batch.commands, command.kind ≠ .frameInfo) {opening : List UInt8}
    (opens : IsOpening batch.frame count opening) (wrong : count ≠ .ofNat batch.commands.length)
    (unread : tape.rest = opening ++ (packets ++ rest))
    (behind : rest = [] ∨ ∃ frame count front others, rest = front ++ others ∧
      IsOpening frame count front ∧ batch.frame < frame)
    (later : ∀ last ∈ tape.lastFrame, last < batch.frame) :
    ∃ batches stopped offset cause, batches.length ≤ 1 ∧ Yields tape batches stopped ∧
      Tape.next stopped = .error (.corrupt offset cause) stopped := by
  have differs : count.toNat ≠ batch.commands.length := by
    rintro same
    exact wrong (by rw [← same, UInt16.ofNat_toNat])
  rcases Nat.lt_or_gt_of_ne differs with fewer | more
  · -- The commands that are not announced stand where the next batch is to begin.
    let start : Batch := ⟨batch.frame, batch.commands.take count.toNat⟩
    have all : ArePackets (start.commands ++ batch.commands.drop count.toNat) packets := by
      rw [List.take_append_drop]
      exact packed.commands
    obtain ⟨before, left, rfl, first, others⟩ := all.split
    have size : start.commands.length = count.toNat := List.length_take_of_le (Nat.le_of_lt fewer)
    have packedStart : start.Packed opening before := by
      refine ⟨?_, size ▸ count.toNat_lt, first, fun command member => ?_⟩
      · rw [size, UInt16.ofNat_toNat]
        exact opens
      · exact packed.kept command (List.mem_of_mem_take member)
    rw [List.append_assoc] at unread
    have read := packedStart.next unread later
    have rest : (tape.skip (opening.length + before.length) start.frame).rest = left ++ rest := by
      change tape.rest.drop _ = _
      rw [unread, ← List.append_assoc, ← List.length_append, List.drop_left]
    have remaining : batch.commands.drop count.toNat ≠ [] := by
      rw [ne_eq, List.drop_eq_nil_iff]
      exact Nat.not_le.mpr fewer
    have kinds : ∀ command ∈ batch.commands.drop count.toNat, command.kind ≠ .frameInfo :=
      fun command member => plain command (List.mem_of_mem_drop member)
    generalize batch.commands.drop count.toNat = unannounced at others remaining kinds
    cases others with
    | nothing => exact absurd rfl remaining
    | packet found _ =>
        rw [List.append_assoc] at rest
        exact ⟨[start], _, _, _, Nat.le_refl 1, .batch read (.nothing _),
          next_of_isPacket found (kinds _ List.mem_cons_self) rest⟩
  · -- What is taken for the next command is the opening of a later batch, or nothing.
    obtain ⟨missing, counted⟩ : ∃ missing, count.toNat = batch.commands.length + (missing + 1) :=
      ⟨count.toNat - batch.commands.length - 1, by omega⟩
    suffices failed : ∃ offset cause, tape.batchAhead = .error (.corrupt offset cause) by
      obtain ⟨offset, cause, failed⟩ := failed
      refine ⟨[], tape, offset, cause, Nat.zero_le 1, .nothing tape, ?_⟩
      rw [Tape.next, isExhausted_of_isOpening opens unread, failed]
      rfl
    rw [batchAhead_of_isOpening opens unread later, counted,
      readCommands_packets packed.commands packed.kept, readCommands]
    rcases behind with rfl | ⟨frame, count, front, others, rfl, ⟨header, rfl, packet⟩, ascends⟩
    · exact ⟨_, _, rfl⟩
    · have stray : strays batch.frame ⟨header, .frameInfo count⟩ = true := by
        have apart : header.frame ≠ batch.frame := fun same =>
          UInt32.lt_irrefl _ (same ▸ ascends)
        rw [strays, bne_iff_ne.mpr apart]
        rfl
      rw [packet.isEmpty_append, packetAt_of_isPacket packet]
      simp only [Bool.false_eq_true, if_false, stray, if_true]
      exact ⟨_, _, rfl⟩

/-! ## Recordings of drafts -/

namespace Draft

theorem oneOfThree_sound (frame : UInt32) {number : UInt32} (counted : number < 3) :
    (oneOfThree frame number).Sound where
  filled := by simp [oneOfThree]
  few := by simp [oneOfThree]
  kept := by simp [oneOfThree, strays, Command.kind, Body.kind, Kind.carries, Kind.layout]
  fits := by simp [oneOfThree, Body.Fits]
  inRange := by simpa [oneOfThree, Body.InRange, Fragment.InRange] using counted

def twoFragments : List UInt8 :=
  (final add [oneOfThree 3 2, oneOfThree 5 1] (begin {})).finish 6

/-- The packets begin at byte 11, and each batch takes 51 bytes. -/
theorem readsBack_twoFragments :
    ∃ tape, ofBytes "a.rep" twoFragments = .ok tape ∧ tape.packetsStart = 11 ∧
      tape.position = 11 ∧ next tape = .ok (some (oneOfThree 3 2).sent) (tape.skip 51 3) ∧
      next (tape.skip 51 3) = .ok (some (oneOfThree 5 1).sent) ((tape.skip 51 3).skip 51 5) ∧
      ReadsBack tape ([oneOfThree 3 2, oneOfThree 5 1].map Batch.sent) := by
  have room : { (final add [oneOfThree 3 2, oneOfThree 5 1] (begin {})).sheet with
      frameCount := 6 }.bytes.length < 2 ^ 32 := by decide
  obtain ⟨tape, opened, -, fresh, packets⟩ := ofBytes_finish
    (final add [oneOfThree 3 2, oneOfThree 5 1] (begin {})) room "a.rep"
  have unread : tape.rest = (oneOfThree 3 2).bytes ++ ((oneOfThree 5 1).bytes ++ []) := packets
  have unreadSecond : (tape.skip 51 3).rest = (oneOfThree 5 1).bytes ++ [] := by
    change tape.rest.drop 51 = _
    rw [unread]
    rfl
  have unreadEnd : ((tape.skip 51 3).skip 51 5).rest = [] := by
    change (tape.skip 51 3).rest.drop 51 = []
    rw [unreadSecond]
    rfl
  obtain ⟨front, whole, size, position, -⟩ := opened_front opened
  have place : front.length = 11 := by
    have lengths := congrArg List.length whole
    rw [List.length_append, packets] at lengths
    have total : 113 = front.length + 102 := lengths
    omega
  have first := next_of_rest (oneOfThree_sound 3 (by decide)) unread (by simp [fresh])
  have second := next_of_rest (oneOfThree_sound 5 (by decide)) unreadSecond
    (by rintro last ⟨⟩; decide)
  exact ⟨tape, opened, by omega, by omega, first, second,
    .batch first (.batch second (.ended (next_of_rest_eq_nil unreadEnd).1))⟩

/-- A recording whose batches are read back may be cut anywhere among its packets, and opens all
the same.  The batches that end in front of the cut or at it are read as they were recorded.  If
the cut is where the last of them ends, nothing is left then; if it is not, every further call
fails for want of bytes. -/
theorem readings_of_cut (sheet : MatchSheet) (offers : List Batch) (frameCount : UInt32)
    (name : String) (opened : ofBytes name ((final add offers (begin sheet)).finish frameCount) =
      .ok tape)
    (reads : ReadsBack tape ((recorded sheet offers).map Batch.sent)) {cut : Nat}
    (start : tape.packetsStart ≤ cut)
    (stop : cut ≤ ((final add offers (begin sheet)).finish frameCount).length) :
    ∃ short, ofBytes name (((final add offers (begin sheet)).finish frameCount).take cut) =
        .ok short ∧
      short.sheet = tape.sheet ∧
      ∃ before behind full answer, recorded sheet offers = before ++ behind ∧
        Yields tape (before.map Batch.sent) full ∧ full.position ≤ cut ∧
        (∀ batch after, next full = .ok (some batch) after → cut < after.position) ∧
        (∀ calls, short.readings (before.length + calls) =
          before.map (fun batch => .ok (some batch.sent)) ++ List.replicate calls answer) ∧
        (full.position = cut → answer = .ok none) ∧
        (full.position < cut →
          ∃ failure, answer = .error failure ∧ wantsMore failure = true) := by
  obtain ⟨front, whole, size, position, fresh, again⟩ := opened_front opened
  obtain ⟨short, openedShort, sheetShort, -, freshShort, unread⟩ :=
    again (tape.rest.take (cut - front.length))
  have contents : ((final add offers (begin sheet)).finish frameCount).take cut =
      front ++ tape.rest.take (cut - front.length) := by
    rw [whole, List.take_append, List.take_of_length_le (by omega)]
  rw [whole, List.length_append] at stop
  have inside : cut - front.length ≤ tape.rest.length := by omega
  obtain ⟨before, behind, full, answer, split, yields, reached, beyond, answers, atEnd, inBatch⟩ :=
    reads.readings_take inside unread (freshShort.trans fresh.symm)
  have place : tape.position + (cut - front.length) = cut := by omega
  rw [place] at reached beyond atEnd inBatch
  obtain ⟨first, others, listed, rfl, rfl⟩ := List.map_eq_append_iff.mp split
  refine ⟨short, contents ▸ openedShort, sheetShort, first, others, full, answer, listed, yields,
    reached, beyond, fun calls => ?_, atEnd, inBatch⟩
  have counted := answers calls
  rw [List.length_map, List.map_map] at counted
  exact counted

/-- When the recording ends inside the second batch, the first is read and then reading fails. -/
theorem readings_of_cut_second :
    ∃ short failure, ofBytes "a.rep" (twoFragments.take 80) = .ok short ∧
      wantsMore failure = true ∧
      ∀ calls, short.readings (1 + calls) =
        .ok (some (oneOfThree 3 2).sent) :: List.replicate calls (.error failure) := by
  obtain ⟨tape, opened, start, position, first, second, reads⟩ := readsBack_twoFragments
  have among : tape.packetsStart ≤ 80 := by omega
  obtain ⟨short, openedShort, -, before, behind, full, answer, split, yields, reached, beyond,
    answers, -, inBatch⟩ := readings_of_cut {} [oneOfThree 3 2, oneOfThree 5 1] 6 "a.rep" opened
      reads among (by decide)
  have recorded : recorded {} [oneOfThree 3 2, oneOfThree 5 1] =
      [oneOfThree 3 2, oneOfThree 5 1] := rfl
  rw [recorded] at split
  rcases before with _ | ⟨_, _ | ⟨_, _ | _⟩⟩
  · cases yields
    have past : 80 < tape.position + 51 := beyond _ _ first
    omega
  · obtain ⟨rfl, -⟩ := List.cons.inj split
    cases yields with
    | batch read others =>
        obtain ⟨-, rfl⟩ := EStateM.Result.ok.inj (first.symm.trans read)
        cases others
        have inside : tape.position + 51 < 80 := by omega
        obtain ⟨failure, rfl, wants⟩ := inBatch inside
        exact ⟨short, failure, openedShort, wants, answers⟩
  · cases yields with
    | batch read others =>
        obtain ⟨-, rfl⟩ := EStateM.Result.ok.inj (first.symm.trans read)
        cases others with
        | batch read others =>
            obtain ⟨-, rfl⟩ := EStateM.Result.ok.inj (second.symm.trans read)
            cases others
            have past : tape.position + 51 + 51 ≤ 80 := reached
            omega
  · cases split

/-- In a recording whose batches are read back, the opening of a batch is made to announce another
number of commands.  The recording opens all the same, and the batches in front are read as they
were recorded.  At most one more is read, and then every further call fails; the end of the
recording is never reached. -/
theorem readings_of_miscount (sheet : MatchSheet) (offers : List Batch) (frameCount : UInt32)
    (name : String) (opened : ofBytes name ((final add offers (begin sheet)).finish frameCount) =
      .ok tape)
    (reads : ReadsBack tape ((recorded sheet offers).map Batch.sent)) {before behind : List Batch}
    (split : recorded sheet offers = before ++ batch :: behind)
    (wrong : count ≠ .ofNat batch.commands.length) :
    let recording := (final add offers (begin sheet)).finish frameCount
    ∃ full, Yields tape (before.map Batch.sent) full ∧
      let place := full.position + Kind.frameInfo.headerSize
      (recording.drop place).take 2 = Encoding.word16 (.ofNat batch.commands.length) ∧
      ∃ (altered : Tape) (more : List Batch) (offset : Nat) (cause : Corruption),
        ofBytes name (overwrite recording place count) = .ok altered ∧ more.length ≤ 1 ∧
        (∀ calls, altered.readings (before.length + more.length + calls) =
          before.map (fun batch => .ok (some batch.sent)) ++
            more.map (fun batch => .ok (some batch)) ++
            List.replicate calls (.error (.corrupt offset cause))) ∧
        ∀ calls, .ok none ∉ altered.readings calls := by
  intro recording
  have member : batch ∈ recorded sheet offers :=
    split ▸ List.mem_append_right before List.mem_cons_self
  have accepted := ((holds_begin sheet).final offers).1.accepted batch member
  have plain : ∀ command ∈ batch.sent.commands, command.kind ≠ .frameInfo := by
    intro command sent
    obtain ⟨source, listed, rfl⟩ := List.mem_map.mp sent
    rw [source.kind_sent]
    exact accepted.plain source listed
  have same : batch.sent.commands.length = batch.commands.length := List.length_map _
  rw [split, List.map_append, List.map_cons] at reads
  obtain ⟨full, yields, left⟩ := reads.yields_append
  cases left with
  | @batch _ after _ _ read others =>
      obtain ⟨opening, packets, packed, ahead, later, moved⟩ := packed_of_next read
      obtain ⟨fields, rfl, width, recount⟩ := packed.opens.recount
      obtain ⟨start, whole, size, position, fresh, again⟩ := opened_front opened
      obtain ⟨front, unread, place, repeats⟩ := yields.again
      have written : recording = start ++ front ++ fields ++
          (Encoding.word16 (.ofNat batch.commands.length) ++ (packets ++ after.rest)) := by
        rw [← same]
        simp only [recording, whole, unread, ahead, List.append_assoc]
      have offset : full.position + Kind.frameInfo.headerSize =
          (start ++ front ++ fields).length := by
        simp only [List.length_append]
        omega
      obtain ⟨altered, openedAltered, -, -, freshAltered, unreadAltered⟩ :=
        again (front ++ (fields ++ Encoding.word16 count ++ (packets ++ after.rest)))
      obtain ⟨stopped, yieldsAltered, rest, last, -⟩ :=
        repeats altered _ unreadAltered (freshAltered.trans fresh.symm)
      have behind : after.rest = [] ∨ ∃ frame count front rest, after.rest = front ++ rest ∧
          IsOpening frame count front ∧ batch.frame < frame := by
        rcases others.opens with nothing | ⟨frame, count, front, rest, unread, opens, above⟩
        · exact .inl nothing
        · exact .inr ⟨frame, count, front, rest, unread, opens, above _ (moved ▸ rfl)⟩
      obtain ⟨more, ended, offset', cause, few, yieldsMore, failed⟩ := packed.next_recounted plain
        (recount count) (same ▸ wrong) rest behind (last ▸ later)
      have answers (calls : Nat) : altered.readings (before.length + more.length + calls) =
          before.map (fun batch => .ok (some batch.sent)) ++
            more.map (fun batch => .ok (some batch)) ++
            List.replicate calls (.error (.corrupt offset' cause)) := by
        have read := (yieldsAltered.append yieldsMore).readings calls
        rw [readings_of_error failed, List.length_append, List.length_map, List.map_append,
          List.map_map] at read
        exact read
      refine ⟨full, yields, ?_, altered, more, offset', cause, ?_, few, answers, ?_⟩
      · rw [offset, written, List.drop_left]
        exact List.take_left' (Encoding.length_word16 _)
      · rw [offset, written, overwrite_append]
        simpa only [List.append_assoc] using openedAltered
      · intro calls ended
        have listed := (readings_front calls (before.length + more.length) altered).subset ended
        rw [Nat.add_comm, answers] at listed
        simp at listed

/-- When the second batch announces no commands at all, the first is read as before, and reading
fails after one batch more or at once. -/
theorem readings_of_miscount_second :
    ∃ (altered : Tape) (more : List Batch) (offset : Nat) (cause : Corruption),
      ofBytes "a.rep" (overwrite twoFragments 77 0) = .ok altered ∧ more.length ≤ 1 ∧
      ∀ calls, altered.readings (1 + more.length + calls) =
        .ok (some (oneOfThree 3 2).sent) :: (more.map fun batch => .ok (some batch)) ++
          List.replicate calls (.error (.corrupt offset cause)) := by
  obtain ⟨tape, opened, -, position, first, -, reads⟩ := readsBack_twoFragments
  have recorded : recorded {} [oneOfThree 3 2, oneOfThree 5 1] =
      [oneOfThree 3 2] ++ oneOfThree 5 1 :: [] := rfl
  have wrong : (0 : UInt16) ≠ .ofNat (oneOfThree 5 1).commands.length := by decide
  obtain ⟨full, yields, -, altered, more, offset, cause, openedAltered, few, answers, -⟩ :=
    readings_of_miscount {} [oneOfThree 3 2, oneOfThree 5 1] 6 "a.rep" opened reads recorded wrong
  cases yields with
  | batch read others =>
      obtain ⟨-, rfl⟩ := EStateM.Result.ok.inj (first.symm.trans read)
      cases others
      have place : (tape.skip 51 3).position + Kind.frameInfo.headerSize = 77 := by
        change tape.position + 51 + 15 = 77
        omega
      rw [place] at openedAltered
      exact ⟨altered, more, offset, cause, openedAltered, few, answers⟩

end Draft

end MatchTape.Tape
