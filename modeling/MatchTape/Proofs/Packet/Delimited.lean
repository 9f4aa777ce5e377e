import MatchTape.Proofs.Packet.Steady

/-!
# Packets end by themselves

The reader of packets is steady: a packet that is found at the front of some bytes is
found at the front of all bytes that begin with it, and at the front of no part of it.  What
is wrong with a packet stays wrong however the input goes on, unless bytes are missing.
-/

namespace MatchTape.Packet

open Reader (Steady Fixed AtLeast)

/-! ## Messages -/

theorem Argument.fixed_read (type : ArgumentType) :
    (Argument.read type).Fixed type.width := by
  cases type with
  | integer => exact Fixed.signed32.map integer
  | real => exact Fixed.real.map real
  | boolean => exact Fixed.word8.map fun byte => boolean (byte != 0)
  | objectId => exact Fixed.word32.map objectId
  | drawableId => exact Fixed.word32.map drawableId
  | teamId => exact Fixed.word32.map teamId
  | location =>
      exact Fixed.real.bind fun x => Fixed.real.bind fun y => Fixed.real.map (location x y)
  | pixel => exact Fixed.signed32.bind fun x => Fixed.signed32.map (pixel x)
  | pixelRegion =>
      exact Fixed.signed32.bind fun lowX => Fixed.signed32.bind fun lowY =>
        Fixed.signed32.bind fun highX => Fixed.signed32.map (pixelRegion lowX lowY highX)
  | timestamp => exact Fixed.word32.map timestamp
  | wideChar => exact Fixed.word16.map wideChar

theorem Argument.fixed_readMany (type : ArgumentType) (count : Nat) :
    (Argument.readMany type count).Fixed (type.width * count) := by
  induction count with
  | zero => exact Fixed.pure []
  | succ count ih =>
      rw [Nat.mul_succ, Nat.add_comm _ type.width]
      exact (fixed_read type).bind fun argument => ih.map (argument :: ·)

namespace Run

theorem steady_readMany (count : Nat) : (readMany count).Steady := by
  induction count with
  | zero => exact Steady.pure []
  | succ count ih =>
      refine Steady.position_bind fun offset => Steady.word8.bind fun code =>
        Steady.word8.bind fun length => ?_
      split
      · exact Steady.throw rfl
      · next type found => exact ih.map (⟨type, length.toNat⟩ :: ·)

theorem fixed_readArguments (runs : List Run) :
    (readArguments runs).Fixed (total (runs.map Run.width)) := by
  induction runs with
  | nil => exact Fixed.pure []
  | cons run runs ih =>
      rw [List.map_cons, total]
      exact (Argument.fixed_readMany run.type run.count).bind fun arguments =>
        ih.map (arguments ++ ·)

end Run

theorem Message.steady_read : Message.read.Steady := by
  refine Steady.word32.bind fun code => Steady.word8.bind fun count =>
    (Run.steady_readMany count.toNat).bind fun runs => ?_
  exact Steady.require_bind ((Run.fixed_readArguments runs).map (Message.mk code))

/-! ## Bodies -/

theorem Fragment.steady_read : Fragment.read.Steady := by
  refine Steady.word16.bind fun wrapped => Steady.word32.bind fun number =>
    Steady.word32.bind fun count => Steady.word32.bind fun total => Steady.word32.bind fun length =>
    Steady.word32.bind fun start => Steady.position_bind fun offset =>
    (Steady.bytes length.toNat).bind fun data => ?_
  split
  · exact Steady.throw rfl
  · split
    · exact Steady.throw rfl
    · exact Steady.pure _

theorem Body.steady_read (kind : Kind) : (Body.read kind).Steady := by
  cases kind with
  | ackBoth => exact Steady.word16.bind fun serial => Steady.word8.map (ackBoth serial)
  | ackStage1 => exact Steady.word16.bind fun serial => Steady.word8.map (ackStage1 serial)
  | ackStage2 => exact Steady.word16.bind fun serial => Steady.word8.map (ackStage2 serial)
  | frameInfo => exact Steady.word16.map frameInfo
  | game => exact Message.steady_read.map game
  | playerLeave => exact Steady.word8.map playerLeave
  | runAheadMetrics =>
      exact Steady.real.bind fun latency => Steady.word16.map (runAheadMetrics latency)
  | runAhead => exact Steady.word16.bind fun frames => Steady.word8.map (runAhead frames)
  | destroyPlayer => exact Steady.word32.map destroyPlayer
  | disconnectChat => exact Steady.chatText.map disconnectChat
  | chat => exact Steady.chatText.bind fun text => Steady.signed32.map (chat text)
  | progress => exact Steady.word8.map progress
  | wrapper => exact Fragment.steady_read.map wrapper
  | file => exact Steady.terminated.bind fun name => Steady.sizedBytes.map (file name)
  | fileAnnounce =>
      exact Steady.terminated.bind fun name => Steady.word16.bind fun id =>
        Steady.word8.map (fileAnnounce name id)
  | fileProgress => exact Steady.word16.bind fun id => Steady.signed32.map (fileProgress id)
  | frameResendRequest => exact Steady.word32.map frameResendRequest
  | disconnectPlayer =>
      exact Steady.word8.bind fun slot => Steady.word32.map (disconnectPlayer slot)
  | disconnectVote => exact Steady.word8.bind fun slot => Steady.word32.map (disconnectVote slot)
  | disconnectFrame => exact Steady.word32.map disconnectFrame
  | disconnectScreenOff => exact Steady.word32.map disconnectScreenOff
  | _ => exact Steady.pure _

/-! ## Packets -/

theorem Header.fixed_readField (kind : Kind) (header : Header) (tag : Tag) :
    (header.readField kind tag).Fixed tag.size := by
  cases tag with
  | kind =>
      refine Fixed.position_bind fun offset => (Fixed.byteField .kind).bind_zero fun found => ?_
      split
      · exact Fixed.pure header
      · exact Fixed.throw rfl 0
  | relay => exact (Fixed.byteField .relay).map fun relay => { header with relay }
  | player => exact (Fixed.byteField .player).map fun player => { header with player }
  | serial => exact Fixed.serialField.map fun serial => { header with serial }
  | frame => exact Fixed.frameField.map fun frame => { header with frame }
  | data => exact (Fixed.field .data).map fun _ => header

/-- Acknowledgements have shorter headers than all other commands, but longer bodies than
some of them. -/
theorem Body.atLeast_read (kind : Kind) :
    7 ≤ kind.headerSize ∨ 5 ≤ kind.headerSize ∧ (Body.read kind).AtLeast 3 := by
  cases kind with
  | ackBoth =>
      have body := Fixed.word16.bind fun serial => Fixed.word8.map (ackBoth serial)
      exact .inr ⟨by decide, body.atLeast⟩
  | ackStage1 =>
      have body := Fixed.word16.bind fun serial => Fixed.word8.map (ackStage1 serial)
      exact .inr ⟨by decide, body.atLeast⟩
  | ackStage2 =>
      have body := Fixed.word16.bind fun serial => Fixed.word8.map (ackStage2 serial)
      exact .inr ⟨by decide, body.atLeast⟩
  | _ => exact .inl (by decide)

namespace Command

def readBehind (kind : Kind) : Reader Command := do
  let header ← kind.layout.tail.foldlM (Header.readField kind) {}
  let body ← Body.read kind
  return ⟨header, body⟩

theorem steady_readBehind (kind : Kind) : (readBehind kind).Steady :=
  (Fixed.foldlM (Header.fixed_readField kind) kind.layout.tail {}).steady.bind fun header =>
    (Body.steady_read kind).map (Command.mk header)

theorem layout_eq (kind : Kind) : kind.layout = .kind :: kind.layout.tail := by
  cases kind <;> rfl

theorem readAs_of_byteField {kind : Kind} {cursor after : Cursor}
    (named : Reader.byteField .kind cursor = .ok kind.byte after) :
    readAs kind cursor = readBehind kind after := by
  have front : Header.readField kind {} .kind cursor = .ok {} after := by
    change (Reader.byteField .kind >>= _) cursor = _
    rw [Reader.run_bind, named]
    exact congrFun (if_pos rfl) after
  rw [readAs, Header.read, layout_eq, List.foldlM_cons, bind_assoc, Reader.run_bind, front]
  rfl

/-- Reading a packet is reading its first field and, by the kind that it names, the rest. -/
theorem read_eq :
    read = (do
      let start ← Reader.position
      let byte ← Reader.byteField .kind
      match Kind.ofByte? byte with
      | none => throw (.violation (start + 1) (.unknownKind byte))
      | some kind => readBehind kind) := by
  funext cursor
  change (peekKind >>= readAs) cursor = (Reader.byteField .kind >>= _) cursor
  rw [Reader.run_bind, Reader.run_bind, peekKind, Reader.Reads.run_get_bind, Reader.run_bind]
  cases named : Reader.byteField .kind cursor with
  | error fault after => rfl
  | ok byte after =>
      cases known : Kind.ofByte? byte with
      | none =>
          simp only [known]
          rfl
      | some kind =>
          rw [← Kind.byte_of_ofByte? known] at named
          simp only [known]
          exact readAs_of_byteField named

theorem steady_read : read.Steady := by
  rw [read_eq]
  refine Steady.position_bind fun start => (Fixed.byteField .kind).steady.bind fun byte => ?_
  split
  · exact Steady.throw rfl
  · next kind known => exact steady_readBehind kind

theorem headerSize_eq (kind : Kind) :
    kind.headerSize = Tag.kind.size + total (kind.layout.tail.map Tag.size) := by
  rw [Kind.headerSize, layout_eq]
  rfl

theorem atLeast_readBehind (kind : Kind) : (readBehind kind).AtLeast 5 := by
  have fields := (Fixed.foldlM (Header.fixed_readField kind) kind.layout.tail {}).atLeast
  have size := headerSize_eq kind
  have field : Tag.kind.size = 2 := rfl
  rcases Body.atLeast_read kind with long | ⟨short, body⟩
  · have behind : (readBehind kind).AtLeast _ := fields.bind fun header =>
      .of_steady ((Body.steady_read kind).map (mk header))
    exact behind.mono (by omega)
  · have behind : (readBehind kind).AtLeast _ := fields.bind fun header =>
      body.bind fun body => .of_steady (Steady.pure (mk header body))
    exact behind.mono (by omega)

theorem atLeast_read : read.AtLeast 7 := by
  rw [read_eq]
  refine AtLeast.position_bind fun start => ?_
  have front : (Reader.byteField .kind).AtLeast 2 := (Fixed.byteField .kind).atLeast
  refine (front.bind fun byte => ?_ : Reader.AtLeast _ (2 + 5))
  split
  · exact AtLeast.throw _ 5
  · next kind known => exact atLeast_readBehind kind

/-! ## Decoding -/

variable {bytes : List UInt8} {command : Command} {used : Nat} {fault : Fault}

theorem decode_eq_ok_iff :
    decode bytes = .ok (command, used) ↔
      ∃ after, read (.start bytes) = .ok command after ∧ after.position = used := by
  unfold decode
  cases read (.start bytes) with
  | ok found after =>
      constructor
      · rintro ⟨⟩
        exact ⟨after, rfl, rfl⟩
      · rintro ⟨_, ⟨⟩, rfl⟩
        rfl
  | error fault after => exact ⟨nofun, fun ⟨_, found, _⟩ => nomatch found⟩

theorem decode_eq_error_iff :
    decode bytes = .error fault ↔ ∃ stopped, read (.start bytes) = .error fault stopped := by
  unfold decode
  cases read (.start bytes) with
  | ok found after => exact ⟨nofun, fun ⟨_, failed⟩ => nomatch failed⟩
  | error other stopped =>
      constructor
      · rintro ⟨⟩
        exact ⟨stopped, rfl⟩
      · rintro ⟨_, ⟨⟩⟩
        rfl

theorem decode_front (decoded : decode bytes = .ok (command, used)) :
    ∃ front rest, bytes = front ++ rest ∧ used = front.length ∧ 7 ≤ front.length ∧
      ∀ other, decode (front ++ other) = .ok (command, front.length) := by
  obtain ⟨after, found, rfl⟩ := decode_eq_ok_iff.mp decoded
  have least := atLeast_read _ _ _ _ found
  obtain ⟨front, rest, rfl, rfl, reads⟩ := steady_read.of_ok found
  refine ⟨front, rest, rfl, Nat.zero_add _, by simpa using least, fun other => ?_⟩
  exact decode_eq_ok_iff.mpr ⟨_, reads other, Nat.zero_add _⟩

/-- A fault is the same for all input that goes on, or it is about missing bytes. -/
theorem decode_fault (failed : decode bytes = .error fault) :
    (fault.shortage? = none ∧ ∀ more, decode (bytes ++ more) = .error fault) ∨
    ∃ offset needed available, fault.shortage? = some (offset, needed, available) ∧
      offset + available = bytes.length ∧ available < needed := by
  obtain ⟨stopped, found⟩ := decode_eq_error_iff.mp failed
  cases steady_read 0 bytes with
  | taken front rest command split reads =>
      rw [Cursor.start, split, reads] at found
      cases found
  | refused other final fails =>
      obtain ⟨halted, here⟩ := fails []
      rw [List.append_nil, ← Cursor.start, found] at here
      cases here
      exact .inl ⟨final, fun more => decode_eq_error_iff.mpr (fails more)⟩
  | short other stopped offset needed available wants ends lacks fails =>
      rw [← Cursor.start, found] at fails
      cases fails
      exact .inr ⟨offset, needed, available, wants, by omega, lacks⟩

/-- A packet that was cut short asks for more. -/
theorem decode_take_of_lt {front : List UInt8}
    (whole : ∀ other, decode (front ++ other) = .ok (command, front.length))
    {count : Nat} (cut : count < front.length) :
    ∃ fault, decode (front.take count) = .error fault ∧ fault.shortage?.isSome := by
  have joined := List.take_append_drop count front
  have decoded := whole []
  rw [List.append_nil] at decoded
  cases found : decode (front.take count) with
  | ok packet =>
      obtain ⟨start, rest, split, size, -, again⟩ := decode_front found
      have same := again (rest ++ front.drop count)
      rw [← List.append_assoc, ← split, joined, decoded] at same
      have used := (Prod.mk.inj (Except.ok.inj same)).2
      have length := congrArg List.length split
      rw [List.length_take_of_le (Nat.le_of_lt cut), List.length_append] at length
      omega
  | error fault =>
      rcases decode_fault found with ⟨-, fails⟩ | ⟨offset, needed, available, wants, -⟩
      · have failed := fails (front.drop count)
        rw [joined, decoded] at failed
        cases failed
      · exact ⟨fault, rfl, by rw [wants]; rfl⟩

/-- Packets end by themselves, and what is wrong with them stays wrong.  A packet that is
found has at least seven bytes, is found from those bytes whatever follows them, and asks for
more when any of them are missing at its end.  A fault that is not about missing bytes is the
same however the input goes on; one that is says how many bytes there were and that more were
needed. -/
theorem decode_delimited (bytes : List UInt8) :
    (∀ command used, decode bytes = .ok (command, used) →
      7 ≤ used ∧ used ≤ bytes.length ∧
      (∀ more, decode (bytes.take used ++ more) = .ok (command, used)) ∧
      ∀ count < used, ∃ fault, decode (bytes.take count) = .error fault ∧
        fault.shortage?.isSome) ∧
    (∀ fault, decode bytes = .error fault → fault.shortage? = none →
      ∀ more, decode (bytes ++ more) = .error fault) ∧
    ∀ fault offset needed available, decode bytes = .error fault →
      fault.shortage? = some (offset, needed, available) →
      offset + available = bytes.length ∧ available < needed := by
  refine ⟨?_, ?_, ?_⟩
  · intro command used decoded
    obtain ⟨front, rest, rfl, rfl, least, whole⟩ := decode_front decoded
    rw [List.take_left, List.length_append]
    refine ⟨least, Nat.le_add_right _ _, whole, fun count cut => ?_⟩
    rw [List.take_append_of_le_length (Nat.le_of_lt cut)]
    exact decode_take_of_lt whole cut
  · intro fault failed final
    rcases decode_fault failed with ⟨-, fails⟩ | ⟨offset, needed, available, wants, -⟩
    · exact fails
    · rw [final] at wants
      cases wants
  · intro fault offset needed available failed wanted
    rcases decode_fault failed with ⟨final, -⟩ | ⟨_, _, _, wants, bounds⟩
    · rw [final] at wanted
      cases wanted
    · rw [wanted] at wants
      cases wants
      exact bounds

/-- A command that keeps a player's connection alive is the shortest packet: it is found in
front of anything, and its first three bytes are not enough. -/
theorem decode_delimited_keepAlive :
    decode [84, 9, 82, 0, 80, 0, 68, 84] = .ok (⟨{}, .keepAlive⟩, 7) ∧
      (∀ more, decode ([84, 9, 82, 0, 80, 0, 68] ++ more) = .ok (⟨{}, .keepAlive⟩, 7)) ∧
      ∃ fault, decode [84, 9, 82] = .error fault ∧ fault.shortage?.isSome := by
  have found : decode [84, 9, 82, 0, 80, 0, 68, 84] = .ok (⟨{}, .keepAlive⟩, 7) := rfl
  have delimited := (decode_delimited [84, 9, 82, 0, 80, 0, 68, 84]).1 _ _ found
  exact ⟨found, delimited.2.2.1, delimited.2.2.2 3 (by decide)⟩

end Command

end MatchTape.Packet
