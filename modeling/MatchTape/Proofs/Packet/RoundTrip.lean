import MatchTape.Proofs.Packet.Message

/-!
# Decoding undoes encoding

Every command is read back as it arrives, from the front of any input that begins
with its packet.  A fragment is the one body that a reader can refuse: its number
must be below its count and its data must lie inside the total.
-/

namespace MatchTape.Packet

/-! ## Headers -/

namespace Header

def adopt (header : Header) (found : Header) : Tag → Header
  | .kind | .data => found
  | .relay => { found with relay := header.relay }
  | .player => { found with player := header.player }
  | .serial => { found with serial := header.serial }
  | .frame => { found with frame := header.frame }

theorem readField_bytes (kind : Kind) (header found : Header) (tag : Tag) :
    (readField kind found tag).Reads (header.field kind tag).bytes (header.adopt found tag) := by
  have read := Reader.Reads.field (header.field kind tag)
  cases tag with
  | kind =>
      refine Reader.Reads.position_bind fun position => ?_
      refine (read.bind_nil (Reader.Reads.pure kind.byte)).bind_nil ?_
      rw [if_pos rfl]
      exact Reader.Reads.pure found
  | relay =>
      have relay : (Reader.byteField .relay).Reads (header.field kind .relay).bytes header.relay :=
        read.bind_nil (Reader.Reads.pure header.relay)
      exact relay.map fun relay => { found with relay }
  | player =>
      have player :
          (Reader.byteField .player).Reads (header.field kind .player).bytes header.player :=
        read.bind_nil (Reader.Reads.pure header.player)
      exact player.map fun player => { found with player }
  | serial =>
      have serial : Reader.serialField.Reads (header.field kind .serial).bytes
          (UInt16.ofNat header.serial.toNat) :=
        read.map fun field => UInt16.ofNat field.value
      rw [UInt16.ofNat_toNat] at serial
      exact serial.map fun serial => { found with serial }
  | frame =>
      have frame : Reader.frameField.Reads (header.field kind .frame).bytes
          (UInt32.ofNat header.frame.toNat) :=
        read.map fun field => UInt32.ofNat field.value
      rw [UInt32.ofNat_toNat] at frame
      exact frame.map fun frame => { found with frame }
  | data => exact read.bind_nil (Reader.Reads.pure found)

/-- The fields of a layout carry over exactly what the kind sends. -/
theorem foldl_adopt (kind : Kind) (header : Header) :
    kind.layout.foldl header.adopt {} = header.normalized kind := by
  cases kind <;> rfl

theorem kind_front (kind : Kind) (header : Header) :
    ∃ fields, header.bytes kind = (Field.kind kind.byte).bytes ++ fields := by
  cases kind <;> exact ⟨_, rfl⟩

theorem read_bytes (kind : Kind) (header : Header) :
    (read kind).Reads (header.bytes kind) (header.normalized kind) := by
  rw [← foldl_adopt]
  exact Reader.Reads.foldlM (readField_bytes kind header) kind.layout {}

end Header

/-! ## Fragments -/

namespace Fragment

/-- The number is one of those that are counted, and the data lies inside the total. -/
def InRange (fragment : Fragment) : Prop :=
  fragment.number < fragment.count ∧
    fragment.offset.toNat + fragment.data.length ≤ fragment.total.toNat

def violation? (fragment : Fragment) : Option Violation :=
  if fragment.count ≤ fragment.number then
    some (.fragmentNumber fragment.number fragment.count)
  else if fragment.total.toNat < fragment.offset.toNat + fragment.length.toNat then
    some (.fragmentRange fragment.offset fragment.length fragment.total)
  else none

variable {fragment : Fragment}

theorem length_of_fits (fits : fragment.data.length < 2 ^ 32) :
    fragment.length.toNat = fragment.data.length :=
  UInt32.toNat_ofNat_of_lt' fits

theorem violation?_eq_none_iff (fits : fragment.data.length < 2 ^ 32) :
    fragment.violation? = none ↔ fragment.InRange := by
  simp only [violation?, InRange, length_of_fits fits, UInt32.le_iff_toNat_le,
    UInt32.lt_iff_toNat_lt]
  split
  · simp only [reduceCtorEq, false_iff]
    omega
  · split
    · simp only [reduceCtorEq, false_iff]
      omega
    · simp only [true_iff]
      omega

theorem read_bytes_append (fits : fragment.data.length < 2 ^ 32) (rest : List UInt8)
    (position : Nat) :
    Fragment.read ⟨fragment.bytes ++ rest, position⟩ =
      match fragment.violation? with
      | some cause => .error (.violation (position + 22) cause)
          ⟨rest, position + fragment.bytes.length⟩
      | none => .ok fragment ⟨rest, position + fragment.bytes.length⟩ := by
  have data := Reader.Reads.bytes fragment.data
  rw [← length_of_fits fits] at data
  rw [Fragment.bytes]
  simp only [List.append_assoc]
  rw [Fragment.read, (Reader.Reads.word16 _).run_bind, (Reader.Reads.word32 _).run_bind,
    (Reader.Reads.word32 _).run_bind, (Reader.Reads.word32 _).run_bind,
    (Reader.Reads.word32 _).run_bind, (Reader.Reads.word32 _).run_bind]
  change (Reader.bytes fragment.length.toNat >>= _) _ = _
  rw [data.run_bind]
  simp only [List.length_append, Encoding.length_word16, Encoding.length_word32, violation?,
    ← Nat.add_assoc]
  split
  · rfl
  · split <;> rfl

theorem read_bytes (fits : fragment.data.length < 2 ^ 32) (inRange : fragment.InRange) :
    Fragment.read.Reads fragment.bytes fragment := by
  intro rest position
  rw [read_bytes_append fits, (violation?_eq_none_iff fits).mpr inRange]

theorem read_refuses {cause : Violation} (fits : fragment.data.length < 2 ^ 32)
    (refused : fragment.violation? = some cause) :
    Fragment.read.Refuses fragment.bytes 22 cause := by
  intro rest position
  rw [read_bytes_append fits, refused]

end Fragment

/-! ## Bodies -/

namespace Body

def Fits : Body → Prop
  | wrapper fragment => fragment.data.length < 2 ^ 32
  | file _ data => data.length < 2 ^ 32
  | _ => True

/-- The body is no fragment, or one in range. -/
def InRange : Body → Prop
  | wrapper fragment => fragment.InRange
  | _ => True

open Reader (Reads)

theorem chatText_bytes (text : String) :
    Reader.chatText.Reads (Encoding.counted (textUnits text)) (sentText text) := by
  rw [textUnits_eq]
  exact Reads.chatText (Text.length_utf16_fitting_le mostUnits text.toList)

theorem terminated_bytes (name : String) :
    Reader.terminated.Reads (Encoding.terminated name) (Text.beforeNul name) :=
  Reads.terminated (Text.zero_notMem_utf8_beforeNul name)

/-- A reader gives back the body as it arrives. -/
theorem read_bytes {body : Body} (fits : body.Fits) (inRange : body.InRange) :
    (read body.kind).Reads body.bytes body.sent := by
  cases body with
  | ackBoth serial player =>
      exact (Reads.word16 serial).bind ((Reads.word8 player).map (ackBoth serial))
  | ackStage1 serial player =>
      exact (Reads.word16 serial).bind ((Reads.word8 player).map (ackStage1 serial))
  | ackStage2 serial player =>
      exact (Reads.word16 serial).bind ((Reads.word8 player).map (ackStage2 serial))
  | frameInfo count => exact (Reads.word16 count).map frameInfo
  | game message => exact message.read_bytes.map game
  | playerLeave player => exact (Reads.word8 player).map playerLeave
  | runAheadMetrics latency rate =>
      exact (Reads.real latency).bind ((Reads.word16 rate).map (runAheadMetrics latency))
  | runAhead frames rate =>
      exact (Reads.word16 frames).bind ((Reads.word8 rate).map (runAhead frames))
  | destroyPlayer index => exact (Reads.word32 index).map destroyPlayer
  | keepAlive => exact Reads.pure keepAlive
  | disconnectChat text => exact (chatText_bytes text).map disconnectChat
  | chat text mask =>
      exact (chatText_bytes text).bind ((Reads.signed32 mask).map (chat (sentText text)))
  | progress percentage => exact (Reads.word8 percentage).map progress
  | loadComplete => exact Reads.pure loadComplete
  | timeoutGameStart => exact Reads.pure timeoutGameStart
  | wrapper fragment => exact (Fragment.read_bytes fits inRange).map wrapper
  | file name data =>
      rw [bytes, List.append_assoc]
      exact (terminated_bytes name).bind
        ((Reads.sizedBytes fits).map (file (Text.beforeNul name)))
  | fileAnnounce name id mask =>
      rw [bytes, List.append_assoc]
      exact (terminated_bytes name).bind ((Reads.word16 id).bind
        ((Reads.word8 mask).map (fileAnnounce (Text.beforeNul name) id)))
  | fileProgress id value =>
      exact (Reads.word16 id).bind ((Reads.signed32 value).map (fileProgress id))
  | frameResendRequest frame => exact (Reads.word32 frame).map frameResendRequest
  | disconnectKeepAlive => exact Reads.pure disconnectKeepAlive
  | disconnectPlayer slot frame =>
      exact (Reads.word8 slot).bind ((Reads.word32 frame).map (disconnectPlayer slot))
  | routerQuery => exact Reads.pure routerQuery
  | routerAck => exact Reads.pure routerAck
  | disconnectVote slot frame =>
      exact (Reads.word8 slot).bind ((Reads.word32 frame).map (disconnectVote slot))
  | disconnectFrame frame => exact (Reads.word32 frame).map disconnectFrame
  | disconnectScreenOff frame => exact (Reads.word32 frame).map disconnectScreenOff

end Body

/-! ## Commands -/

namespace Command

/-- The kind byte stands in front of every packet, where a look at it finds it again. -/
theorem peekKind_bytes_append (command : Command) (rest : List UInt8) (position : Nat) :
    peekKind ⟨command.bytes ++ rest, position⟩ =
      .ok command.kind ⟨command.bytes ++ rest, position⟩ := by
  obtain ⟨fields, front⟩ := Header.kind_front command.kind command.header
  have bytes : command.bytes ++ rest =
      (Field.kind command.kind.byte).bytes ++ (fields ++ command.body.bytes ++ rest) := by
    rw [Command.bytes, front]
    simp only [List.append_assoc]
  have byte : (Reader.byteField .kind).Reads (Field.kind command.kind.byte).bytes
      command.kind.byte :=
    (Reader.Reads.field (.kind command.kind.byte)).bind_nil (Reader.Reads.pure _)
  rw [bytes, peekKind, Reader.Reads.run_get_bind, byte.run_bind, Kind.ofByte?_byte]
  rfl

theorem readAs_bytes {command : Command} (fits : command.body.Fits)
    (inRange : command.body.InRange) :
    (readAs command.kind).Reads command.bytes command.sent :=
  (command.header.read_bytes command.kind).bind
    ((Body.read_bytes fits inRange).map (Command.mk _))

theorem read_bytes_append (command : Command) (rest : List UInt8) (position : Nat) :
    read ⟨command.bytes ++ rest, position⟩ =
      readAs command.kind ⟨command.bytes ++ rest, position⟩ := by
  change EStateM.bind peekKind readAs _ = _
  rw [EStateM.bind, peekKind_bytes_append]

theorem read_bytes {command : Command} (fits : command.body.Fits)
    (inRange : command.body.InRange) : read.Reads command.bytes command.sent := by
  intro rest position
  rw [read_bytes_append]
  exact readAs_bytes fits inRange rest position

theorem read_refuses {header : Header} {fragment : Fragment} {cause : Violation}
    (fits : fragment.data.length < 2 ^ 32) (refused : fragment.violation? = some cause) :
    read.Refuses (Command.bytes ⟨header, .wrapper fragment⟩)
      ((header.bytes .wrapper).length + 22) cause := by
  have body : (Body.read .wrapper).Refuses fragment.bytes 22 cause :=
    (Fragment.read_refuses fits refused).bind
  have whole : (readAs .wrapper).Refuses (Command.bytes ⟨header, .wrapper fragment⟩)
      ((header.bytes .wrapper).length + 22) cause :=
    Reader.Refuses.behind (header.read_bytes .wrapper) body.bind
  intro rest position
  rw [read_bytes_append]
  exact whole rest position

theorem decode_of_reads {bytes : List UInt8} {command : Command}
    (reads : read.Reads bytes command) (rest : List UInt8) :
    decode (bytes ++ rest) = .ok (command, bytes.length) := by
  simp only [decode, Cursor.start, reads rest 0, Nat.zero_add]

theorem decode_of_refuses {bytes : List UInt8} {skipped : Nat} {cause : Violation}
    (refuses : read.Refuses bytes skipped cause) (rest : List UInt8) :
    decode (bytes ++ rest) = .error (.violation skipped cause) := by
  simp only [decode, Cursor.start, refuses rest 0, Nat.zero_add]

/-- The packet of a command is read back from the front of any input as the command
that arrives: only header fields that the kind does not send, chat beyond 255 units,
file names beyond their first NUL and arguments beyond 255 runs are lost.  The one
exception is a fragment out of range, which is refused. -/
theorem decode_bytes_append (command : Command) (rest : List UInt8) (fits : command.body.Fits) :
    (command.body.InRange →
      decode (command.bytes ++ rest) = .ok (command.sent, command.bytes.length)) ∧
    (¬ command.body.InRange →
      ∃ offset cause, decode (command.bytes ++ rest) = .error (.violation offset cause)) := by
  constructor
  · intro inRange
    exact decode_of_reads (read_bytes fits inRange) rest
  · intro outOfRange
    obtain ⟨header, body⟩ := command
    cases body with
    | wrapper fragment =>
        cases found : fragment.violation? with
        | none => exact absurd ((Fragment.violation?_eq_none_iff fits).mp found) outOfRange
        | some cause => exact ⟨_, cause, decode_of_refuses (read_refuses fits found) rest⟩
    | _ => exact absurd trivial outOfRange

/-- The second of three fragments loses its frame, which fragments do not send; as the
fourth of three it is refused. -/
theorem decode_bytes_append_fragment :
    (decode ((Command.mk ⟨3, 2, 9, 4⟩ (.wrapper ⟨7, 1, 3, 6, 2, [5, 6]⟩)).bytes ++ [84]) =
      .ok (⟨⟨3, 2, 0, 4⟩, .wrapper ⟨7, 1, 3, 6, 2, [5, 6]⟩⟩, 34)) ∧
    ∃ offset cause,
      decode ((Command.mk ⟨3, 2, 9, 4⟩ (.wrapper ⟨7, 3, 3, 6, 2, [5, 6]⟩)).bytes ++ [84]) =
        .error (.violation offset cause) := by
  have fits : [(5 : UInt8), 6].length < 2 ^ 32 := by decide
  have second := decode_bytes_append ⟨⟨3, 2, 9, 4⟩, .wrapper ⟨7, 1, 3, 6, 2, [5, 6]⟩⟩ [84] fits
  have fourth := decode_bytes_append ⟨⟨3, 2, 9, 4⟩, .wrapper ⟨7, 3, 3, 6, 2, [5, 6]⟩⟩ [84] fits
  exact ⟨second.1 ⟨by decide, by decide⟩, fourth.2 fun inRange => absurd inRange.1 (by decide)⟩

end Command

end MatchTape.Packet
