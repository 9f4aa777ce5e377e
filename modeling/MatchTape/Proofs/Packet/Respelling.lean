import Mathlib.Data.List.Basic
import MatchTape.Proofs.Packet.Delimited
import MatchTape.Proofs.Packet.Lengths
import MatchTape.Proofs.Packet.RoundTrip
import MatchTape.Proofs.Packet.Runs
import MatchTape.Proofs.Packet.Spelling

/-!
# Packets that are encoded again

A command that was decoded arrives unchanged when it is sent on: nothing of it is left to be
cut.  Its new packet is no longer than the one it was read from, and is the same packet unless it
holds a message, whose runs may have been declared in more ways than one.
-/

namespace MatchTape.Packet

open Reader (Spells)

/-! ## Headers -/

namespace Header

/-- Reading a field takes one field over from some header, whose bytes were read. -/
theorem spells_readField (kind : Kind) (found : Header) (tag : Tag) :
    (readField kind found tag).Spells fun header front =>
      ∃ source : Header, header = source.adopt found tag ∧
        front = (source.field kind tag).bytes := by
  cases tag with
  | kind =>
      refine Spells.position_bind fun offset => (Spells.byteField .kind).bind_eq fun byte => ?_
      split
      · next same =>
          refine Spells.pure ⟨found, rfl, ?_⟩
          rw [same, List.append_nil, Field.ofValue, UInt8.ofNat_toNat]
          rfl
      · exact Spells.throw _
  | relay =>
      refine (Spells.byteField .relay).map_eq _ fun relay => ⟨{ relay }, rfl, ?_⟩
      rw [Field.ofValue, UInt8.ofNat_toNat]
      rfl
  | player =>
      refine (Spells.byteField .player).map_eq _ fun player => ⟨{ player }, rfl, ?_⟩
      rw [Field.ofValue, UInt8.ofNat_toNat]
      rfl
  | serial => exact Spells.serialField.map_eq _ fun serial => ⟨{ serial }, rfl, rfl⟩
  | frame => exact Spells.frameField.map_eq _ fun frame => ⟨{ frame }, rfl, rfl⟩
  | data =>
      refine (Spells.field .data).map _ ?_
      rintro field front ⟨tagged, rfl⟩
      cases field with
      | data => exact ⟨found, rfl, rfl⟩
      | kind | relay | player | serial | frame => cases tagged

/-- A header with one field of another has that field to give, and otherwise its own. -/
theorem adopt_adopt (first others found : Header) (tag : Tag) :
    (first.adopt others tag).adopt found tag = first.adopt found tag := by
  cases tag <;> rfl

theorem adopt_adopt_of_ne (first others found : Header) {tag other : Tag} (apart : other ≠ tag) :
    (first.adopt others tag).adopt found other = others.adopt found other := by
  cases tag <;> cases other <;> first | rfl | exact absurd rfl apart

theorem field_adopt (kind : Kind) (first others : Header) (tag : Tag) :
    (first.adopt others tag).field kind tag = first.field kind tag := by
  cases tag <;> rfl

theorem field_adopt_of_ne (kind : Kind) (first others : Header) {tag other : Tag}
    (apart : other ≠ tag) :
    (first.adopt others tag).field kind other = others.field kind other := by
  cases tag <;> cases other <;> first | rfl | exact absurd rfl apart

/-- Reading different fields takes them over from one header. -/
theorem spells_foldlM (kind : Kind) {tags : List Tag} (distinct : tags.Nodup) (found : Header) :
    (tags.foldlM (readField kind) found).Spells fun header front =>
      ∃ source : Header, header = tags.foldl source.adopt found ∧
        front = tags.flatMap fun tag => (source.field kind tag).bytes := by
  induction tags generalizing found with
  | nil => exact Spells.pure ⟨found, rfl, rfl⟩
  | cons tag tags ih =>
      obtain ⟨fresh, distinct⟩ := List.nodup_cons.mp distinct
      rw [List.foldlM_cons]
      refine (spells_readField kind found tag).bind ?_
      rintro middle front ⟨first, rfl, rfl⟩
      refine (ih distinct _).mono ?_
      rintro header back ⟨others, rfl, rfl⟩
      have apart : ∀ other ∈ tags, other ≠ tag := fun other member same => fresh (same ▸ member)
      refine ⟨first.adopt others tag, ?_, ?_⟩
      · rw [List.foldl_cons, adopt_adopt]
        exact List.foldl_ext _ _ _ fun header other member =>
          (adopt_adopt_of_ne first others header (apart other member)).symm
      · rw [List.flatMap_cons, field_adopt]
        refine congrArg _ (List.flatMap_congr fun other member => ?_)
        rw [field_adopt_of_ne kind first others (apart other member)]

theorem nodup_layout (kind : Kind) : kind.layout.Nodup := by
  cases kind <;> decide

theorem normalized_normalized (kind : Kind) (header : Header) :
    (header.normalized kind).normalized kind = header.normalized kind := by
  cases kind <;> rfl

theorem bytes_normalized (kind : Kind) (header : Header) :
    (header.normalized kind).bytes kind = header.bytes kind := by
  cases kind <;> rfl

/-- A header that was read has no field that its kind does not send. -/
theorem spells_read (kind : Kind) : (read kind).Spells fun header front =>
    header.normalized kind = header ∧ front = header.bytes kind := by
  refine (spells_foldlM kind (nodup_layout kind) {}).mono ?_
  rintro header front ⟨source, rfl, rfl⟩
  rw [foldl_adopt, normalized_normalized, bytes_normalized]
  exact ⟨rfl, rfl⟩

end Header

/-! ## Messages -/

/-- Arguments have the type under which they were read.  The bytes of one that is read as true
may be others than it is written with. -/
theorem Argument.spells_read (type : ArgumentType) :
    (read type).Spells fun argument _ => argument.type = type := by
  cases type with
  | integer => exact Spells.signed32.map integer fun _ _ _ => rfl
  | real => exact Spells.real.map real fun _ _ _ => rfl
  | boolean => exact Spells.word8.map (fun byte => boolean (byte != 0)) fun _ _ _ => rfl
  | objectId => exact Spells.word32.map objectId fun _ _ _ => rfl
  | drawableId => exact Spells.word32.map drawableId fun _ _ _ => rfl
  | teamId => exact Spells.word32.map teamId fun _ _ _ => rfl
  | location =>
      exact Spells.real.bind fun x _ _ => Spells.real.bind fun y _ _ =>
        Spells.real.map (location x y) fun _ _ _ => rfl
  | pixel =>
      exact Spells.signed32.bind fun x _ _ => Spells.signed32.map (pixel x) fun _ _ _ => rfl
  | pixelRegion =>
      exact Spells.signed32.bind fun lowX _ _ => Spells.signed32.bind fun lowY _ _ =>
        Spells.signed32.bind fun highX _ _ =>
          Spells.signed32.map (pixelRegion lowX lowY highX) fun _ _ _ => rfl
  | timestamp => exact Spells.word32.map timestamp fun _ _ _ => rfl
  | wideChar => exact Spells.word16.map wideChar fun _ _ _ => rfl

theorem Argument.spells_readMany (type : ArgumentType) (count : Nat) :
    (readMany type count).Spells fun arguments _ =>
      arguments.map Argument.type = List.replicate count type := by
  induction count with
  | zero => exact Spells.pure rfl
  | succ count ih =>
      refine (spells_read type).bind fun argument _ typed =>
        ih.map (argument :: ·) fun others _ same => ?_
      rw [List.map_cons, typed, same, List.replicate_succ]

namespace Run

theorem spells_readArguments (runs : List Run) :
    (readArguments runs).Spells fun arguments _ =>
      arguments.map Argument.type = runs.flatMap Run.types := by
  induction runs with
  | nil => exact Spells.pure rfl
  | cons run runs ih =>
      refine (Argument.spells_readMany run.type run.count).bind fun arguments _ typed =>
        ih.map (arguments ++ ·) fun others _ same => ?_
      rw [List.map_append, typed, same, List.flatMap_cons, Run.types]

/-- As many runs are declared as were counted, each with a length of one byte. -/
theorem spells_readMany (count : Nat) :
    (readMany count).Spells fun runs front =>
      runs.length = count ∧ (∀ run ∈ runs, run.count ≤ most) ∧ front.length = 2 * count := by
  induction count with
  | zero => exact Spells.pure ⟨rfl, fun _ => nofun, rfl⟩
  | succ count ih =>
      refine Spells.position_bind fun offset => Spells.word8.bind_eq fun code =>
        Spells.word8.bind_eq fun length => ?_
      split
      · exact Spells.throw _
      · next type known =>
          refine ih.map (⟨type, length.toNat⟩ :: ·) fun others back declared => ?_
          obtain ⟨counted, small, size⟩ := declared
          have room : length.toNat ≤ most := Nat.le_of_lt_succ length.toNat_lt
          refine ⟨congrArg (· + 1) counted, List.forall_mem_cons.mpr ⟨room, small⟩, ?_⟩
          simp only [List.length_append, List.length_singleton, size]
          omega

end Run

/-- All arguments of a message that was read can be sent, in no more bytes than they came in. -/
theorem Message.spells_read : read.Spells fun message front =>
    message.isEncodable = true ∧ message.bytes.length ≤ front.length := by
  refine Spells.word32.bind_eq fun code => Spells.word8.bind_eq fun count =>
    (Run.spells_readMany count.toNat).bind fun runs table declared => ?_
  obtain ⟨counted, small, size⟩ := declared
  have arguments := (Run.spells_readArguments runs).length_eq (Run.fixed_readArguments runs)
  refine Spells.require_bind (arguments.map (Message.mk code) fun found back typed => ?_)
  obtain ⟨typed, width⟩ := typed
  have fewest : (Message.runs ⟨code, found⟩).length ≤ runs.length := by
    rw [Message.runs, typed]
    exact Run.length_gather_le small
  have few : (Message.runs ⟨code, found⟩).length ≤ Run.most :=
    Nat.le_trans fewest (counted ▸ Nat.le_of_lt_succ count.toNat_lt)
  have encodable : Message.isEncodable ⟨code, found⟩ = true := decide_eq_true few
  refine ⟨encodable, ?_⟩
  have same : (Message.sentArguments ⟨code, found⟩) = found :=
    congrArg Message.arguments (Message.sent_of_isEncodable encodable)
  have widths := Run.length_arguments (Message.sentArguments_types ⟨code, found⟩)
  rw [same, Run.length_arguments typed] at widths
  have sentRuns : (Message.sentRuns ⟨code, found⟩) = Message.runs ⟨code, found⟩ :=
    List.take_of_length_le few
  rw [Message.length_bytes, Message.size, ← widths, sentRuns]
  simp only [List.length_append, Encoding.length_word32, List.length_singleton, size, width]
  omega

/-! ## Bodies -/

/-- What a fragment was read from is the fragment's own bytes. -/
theorem Fragment.spells_read : Fragment.read.Spells fun fragment front =>
    fragment.data.length < 2 ^ 32 ∧ fragment.InRange ∧ front = fragment.bytes := by
  refine Spells.word16.bind_eq fun wrapped => Spells.word32.bind_eq fun number =>
    Spells.word32.bind_eq fun count => Spells.word32.bind_eq fun total =>
    Spells.word32.bind_eq fun length => Spells.word32.bind_eq fun start =>
    Spells.position_bind fun offset => (Spells.bytes length.toNat).bind ?_
  rintro data back ⟨rfl, size⟩
  split
  · exact Spells.throw _
  · next below =>
      split
      · exact Spells.throw _
      · next inside =>
          have length_eq : UInt32.ofNat back.length = length := by
            rw [size, UInt32.ofNat_toNat]
          refine Spells.pure ⟨?_, ⟨UInt32.not_le.mp below, ?_⟩, ?_⟩
          · rw [size]
            exact length.toNat_lt
          · rw [size]
            exact Nat.le_of_not_lt inside
          · simp only [Fragment.bytes, Fragment.length, length_eq, List.append_assoc,
              List.append_nil]

namespace Body

/-- A body of a kind that was read: it arrives unchanged when it is sent on, in bytes no more
than these, and in these bytes unless it is a message. -/
structure Settled (kind : Kind) (body : Body) (front : List UInt8) : Prop where
  kind_eq : body.kind = kind
  sent_eq : body.sent = body
  fits : body.Fits
  inRange : body.InRange
  length_le : body.bytes.length ≤ front.length
  bytes_eq : kind ≠ .game → body.bytes = front

theorem Settled.of_eq {kind : Kind} {body : Body} {front : List UInt8}
    (spelt : front = body.bytes) (kind_eq : body.kind = kind) (sent : body.sent = body)
    (fits : body.Fits) (inRange : body.InRange) : Settled kind body front :=
  ⟨kind_eq, sent, fits, inRange, spelt ▸ Nat.le_refl _, fun _ => spelt.symm⟩

theorem spells_read (kind : Kind) : (read kind).Spells (Settled kind) := by
  cases kind with
  | ackBoth =>
      exact Spells.word16.bind_eq fun serial => Spells.word8.map_eq (ackBoth serial) fun player =>
        .of_eq rfl rfl rfl trivial trivial
  | ackStage1 =>
      exact Spells.word16.bind_eq fun serial => Spells.word8.map_eq (ackStage1 serial) fun player =>
        .of_eq rfl rfl rfl trivial trivial
  | ackStage2 =>
      exact Spells.word16.bind_eq fun serial => Spells.word8.map_eq (ackStage2 serial) fun player =>
        .of_eq rfl rfl rfl trivial trivial
  | frameInfo =>
      exact Spells.word16.map_eq frameInfo fun count => .of_eq rfl rfl rfl trivial trivial
  | game =>
      refine Message.spells_read.map game fun message front settled => ?_
      have sent := Message.sent_of_isEncodable settled.1
      exact ⟨rfl, congrArg game sent, trivial, trivial, settled.2, absurd rfl⟩
  | playerLeave =>
      exact Spells.word8.map_eq playerLeave fun player => .of_eq rfl rfl rfl trivial trivial
  | runAheadMetrics =>
      exact Spells.real.bind_eq fun latency =>
        Spells.word16.map_eq (runAheadMetrics latency) fun rate =>
          .of_eq rfl rfl rfl trivial trivial
  | runAhead =>
      exact Spells.word16.bind_eq fun frames => Spells.word8.map_eq (runAhead frames) fun rate =>
        .of_eq rfl rfl rfl trivial trivial
  | destroyPlayer =>
      exact Spells.word32.map_eq destroyPlayer fun index => .of_eq rfl rfl rfl trivial trivial
  | disconnectChat =>
      refine Spells.chatText.map disconnectChat fun text front spelt => ?_
      exact .of_eq spelt.2 rfl (congrArg disconnectChat spelt.1) trivial trivial
  | chat =>
      refine Spells.chatText.bind fun text front spelt => Spells.signed32.map_eq (chat text)
        fun mask => ?_
      exact .of_eq (congrArg (· ++ Encoding.signed32 mask) spelt.2) rfl
        (congrArg (chat · mask) spelt.1) trivial trivial
  | progress =>
      exact Spells.word8.map_eq progress fun percentage => .of_eq rfl rfl rfl trivial trivial
  | wrapper =>
      refine Fragment.spells_read.map wrapper fun fragment front spelt => ?_
      exact .of_eq spelt.2.2 rfl rfl spelt.1 spelt.2.1
  | file =>
      refine Spells.terminated.bind fun name front spelt => Spells.sizedBytes.map (file name)
        fun data back sized => ?_
      refine .of_eq ?_ rfl (congrArg (file · data) spelt.1) sized.1 trivial
      rw [spelt.2, sized.2, bytes, List.append_assoc]
  | fileAnnounce =>
      refine Spells.terminated.bind fun name front spelt => Spells.word16.bind_eq fun id =>
        Spells.word8.map_eq (fileAnnounce name id) fun mask => ?_
      refine .of_eq ?_ rfl (congrArg (fileAnnounce · id mask) spelt.1) trivial trivial
      rw [spelt.2, bytes, List.append_assoc]
  | fileProgress =>
      exact Spells.word16.bind_eq fun id => Spells.signed32.map_eq (fileProgress id) fun value =>
        .of_eq rfl rfl rfl trivial trivial
  | frameResendRequest =>
      exact Spells.word32.map_eq frameResendRequest fun frame => .of_eq rfl rfl rfl trivial trivial
  | disconnectPlayer =>
      exact Spells.word8.bind_eq fun slot => Spells.word32.map_eq (disconnectPlayer slot)
        fun frame => .of_eq rfl rfl rfl trivial trivial
  | disconnectVote =>
      exact Spells.word8.bind_eq fun slot => Spells.word32.map_eq (disconnectVote slot)
        fun frame => .of_eq rfl rfl rfl trivial trivial
  | disconnectFrame =>
      exact Spells.word32.map_eq disconnectFrame fun frame => .of_eq rfl rfl rfl trivial trivial
  | disconnectScreenOff =>
      exact Spells.word32.map_eq disconnectScreenOff fun frame => .of_eq rfl rfl rfl trivial trivial
  | keepAlive | loadComplete | timeoutGameStart | disconnectKeepAlive | routerQuery | routerAck =>
      exact Spells.pure (.of_eq rfl rfl rfl trivial trivial)

end Body

/-! ## Commands -/

namespace Command

/-- A command that was read arrives unchanged when it is sent on. -/
theorem spells_readAs (kind : Kind) : (readAs kind).Spells fun command front =>
    command.sent = command ∧ command.body.Fits ∧ command.body.InRange ∧
      command.bytes.length ≤ front.length ∧ (command.kind ≠ .game → command.bytes = front) := by
  refine (Header.spells_read kind).bind fun header front spelt =>
    (Body.spells_read kind).map (Command.mk header) fun body back settled => ?_
  obtain ⟨normalized, rfl⟩ := spelt
  obtain rfl := settled.kind_eq
  refine ⟨?_, settled.fits, settled.inRange, ?_, fun other => ?_⟩
  · rw [sent, settled.sent_eq]
    exact congrArg (Command.mk · body) normalized
  · rw [bytes, List.length_append, List.length_append]
    exact Nat.add_le_add_left settled.length_le _
  · change header.bytes body.kind ++ body.bytes = header.bytes body.kind ++ back
    rw [settled.bytes_eq other]

theorem peekKind_stays {cursor after : Cursor} {kind : Kind}
    (peeked : peekKind cursor = .ok kind after) : after = cursor := by
  rw [peekKind, Reader.Reads.run_get_bind, Reader.run_bind] at peeked
  cases named : Reader.byteField .kind cursor with
  | error fault stopped =>
      rw [named] at peeked
      cases peeked
  | ok byte stopped =>
      rw [named] at peeked
      cases known : Kind.ofByte? byte with
      | none =>
          simp only [known] at peeked
          cases peeked
      | some found =>
          simp only [known] at peeked
          cases peeked
          rfl

theorem readAs_of_read {cursor after : Cursor} {command : Command}
    (found : read cursor = .ok command after) : ∃ kind, readAs kind cursor = .ok command after := by
  change (peekKind >>= readAs) cursor = _ at found
  rw [Reader.run_bind] at found
  split at found
  · next kind stopped peeked =>
      obtain rfl := peekKind_stays peeked
      exact ⟨kind, found⟩
  · cases found

theorem spells_header (kind : Kind) : (readAs kind).Spells fun command front =>
    command.kind = kind ∧ ∃ body, front = command.header.bytes kind ++ body := by
  refine (Header.spells_read kind).bind fun header front spelt =>
    (Body.spells_read kind).map (Command.mk header) fun body back settled => ?_
  exact ⟨settled.kind_eq, back, congrArg (· ++ back) spelt.2⟩

theorem spells_read : read.Spells fun command front =>
    command.sent = command ∧ command.body.Fits ∧ command.body.InRange ∧
      command.bytes.length ≤ front.length ∧ (command.kind ≠ .game → command.bytes = front) := by
  intro input position command after found
  obtain ⟨kind, found⟩ := readAs_of_read found
  exact spells_readAs kind input position command after found

/-- A command that was decoded is encoded in no more bytes than it came in, is decoded again from
them with nothing changed, and is encoded in the very same bytes unless it holds a message. -/
theorem decode_bytes_of_decode {bytes : List UInt8} {command : Command} {used : Nat}
    (decoded : decode bytes = .ok (command, used)) :
    command.size ≤ used ∧ decode command.bytes = .ok (command, command.size) ∧
      (command.kind ≠ .game → command.bytes = bytes.take used) := by
  unfold decode at decoded
  split at decoded
  · next after found =>
      cases decoded
      obtain ⟨front, rest, rfl, rfl, same, fits, inRange, shorter, equal⟩ :=
        spells_read _ _ _ _ found
      have size : command.bytes.length = command.size := by
        rw [Command.bytes, List.length_append, Header.length_bytes, Body.length_bytes]
        exact (Nat.add_assoc _ _ _).symm
      have again := decode_of_reads (read_bytes fits inRange) []
      rw [List.append_nil, same, size] at again
      rw [Nat.zero_add, List.take_left]
      exact ⟨size ▸ shorter, again, equal⟩
  · cases decoded

/-- A message of two flags may come with its flags declared one by one, between runs of no length
at all, and with another byte than one for a flag.  It is encoded in eight bytes less. -/
theorem decode_bytes_of_decode_flags :
    let command : Command := ⟨{}, .game ⟨7, [.boolean true, .boolean true]⟩⟩
    decode [84, 4, 70, 0, 0, 0, 0, 82, 0, 80, 0, 67, 0, 0, 68, 7, 0, 0, 0, 5, 2, 1, 1, 0, 2, 0,
        2, 1, 0, 0, 255, 1] = .ok (command, 32) ∧
      command.size = 24 ∧ command.size ≤ 32 ∧ decode command.bytes = .ok (command, 24) := by
  intro command
  have decoded : decode [84, 4, 70, 0, 0, 0, 0, 82, 0, 80, 0, 67, 0, 0, 68, 7, 0, 0, 0, 5, 2, 1, 1,
      0, 2, 0, 2, 1, 0, 0, 255, 1] = .ok (command, 32) := by decide +kernel
  have size : command.size = 24 := by decide
  obtain ⟨shorter, again, -⟩ := decode_bytes_of_decode decoded
  rw [size] at again
  exact ⟨decoded, size, shorter, again⟩

end Command

end MatchTape.Packet
