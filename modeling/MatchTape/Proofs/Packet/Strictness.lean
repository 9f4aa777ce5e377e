import MatchTape.Proofs.Packet.Respelling

/-!
# Packets are taken for what they say they are

The kind field in front of a packet decides alone which of the 27 kinds can read it, so that to
read a packet as some kind is to read it and to find that kind.  Behind it stand the fields of one
layout: where any of them bears another tag than the one that is due, no kind reads the packet,
although the field may be as wide as the one it stands for.
-/

namespace MatchTape.Packet

open Reader (bind_of_error run_bind)

theorem Kind.byte_injective {left right : Kind} (same : left.byte = right.byte) :
    left = right := by
  have found := Kind.ofByte?_byte left
  rw [same, Kind.ofByte?_byte] at found
  exact (Option.some.inj found).symm

/-! ## Fields under another tag -/

namespace Reader

theorem field_of_ne {tag : Tag} {byte : UInt8} (other : byte ≠ tag.byte) (rest : List UInt8)
    (position : Nat) :
    field tag ⟨byte :: rest, position⟩ =
      .error (.violation position (.wrongTag tag byte)) ⟨byte :: rest, position⟩ := by
  simp only [field, if_neg other]

end Reader

namespace Header

theorem readField_kind_of_error {cursor stopped : Cursor} {fault : Fault} (kind : Kind)
    (found : Header) (failed : Reader.byteField .kind cursor = .error fault stopped) :
    readField kind found .kind cursor = .error fault stopped := by
  change (Reader.byteField .kind >>= _) cursor = _
  exact bind_of_error failed

/-- A field that bears another tag than the one that is due is refused where it stands. -/
theorem readField_of_ne (kind : Kind) (found : Header) {tag : Tag} {byte : UInt8}
    (other : byte ≠ tag.byte) (rest : List UInt8) (position : Nat) :
    readField kind found tag ⟨byte :: rest, position⟩ =
      .error (.violation position (.wrongTag tag byte)) ⟨byte :: rest, position⟩ := by
  have refused := Reader.field_of_ne other rest position
  cases tag with
  | kind => exact readField_kind_of_error kind found (bind_of_error refused)
  | relay | player | serial | frame => exact bind_of_error (bind_of_error refused)
  | data => exact bind_of_error refused

/-- The tag of every field stands behind the fields that come before it in the layout. -/
theorem bytes_eq_of_layout {kind : Kind} {before behind : List Tag} {tag : Tag}
    (layout : kind.layout = before ++ tag :: behind) (header : Header) :
    ∃ fields, header.bytes kind =
      (before.flatMap fun tag => (header.field kind tag).bytes) ++ tag.byte :: fields := by
  rw [bytes, layout, List.flatMap_append, List.flatMap_cons, Field.bytes, tag_field,
    List.cons_append]
  exact ⟨_, rfl⟩

/-- A header is read up to the field that bears another tag. -/
theorem read_of_ne {kind : Kind} {before behind : List Tag} {tag : Tag}
    (layout : kind.layout = before ++ tag :: behind) (header : Header) {byte : UInt8}
    (other : byte ≠ tag.byte) (rest : List UInt8) :
    ∃ stopped, read kind (.start
        ((before.flatMap fun tag => (header.field kind tag).bytes) ++ byte :: rest)) =
      .error (.violation (total (before.map Tag.size)) (.wrongTag tag byte)) stopped := by
  have front := Reader.Reads.foldlM (readField_bytes kind header) before {}
  have place : 0 + total (before.map Tag.size) = _ := Nat.zero_add _
  rw [read, layout, List.foldlM_append, Cursor.start, front.run_bind, length_fields, place]
  exact ⟨_, bind_of_error (readField_of_ne kind _ other rest _)⟩

end Header

namespace Command

variable {kind : Kind} {cursor after : Cursor} {byte : UInt8} {command : Command}

/-! ## The kind field -/

theorem read_of_byteField (named : Reader.byteField .kind cursor = .ok kind.byte after) :
    read cursor = readAs kind cursor := by
  change (peekKind >>= readAs) cursor = _
  rw [run_bind, peekKind, Reader.Reads.run_get_bind, run_bind, named]
  simp only [Kind.ofByte?_byte]
  rfl

theorem readAs_of_byteField_ne (named : Reader.byteField .kind cursor = .ok byte after)
    (other : byte ≠ kind.byte) :
    readAs kind cursor = .error (.violation cursor.position (.otherKind kind byte)) after := by
  have refused : Header.readField kind {} .kind cursor =
      .error (.violation cursor.position (.otherKind kind byte)) after := by
    change (Reader.byteField .kind >>= _) cursor = _
    rw [run_bind, named]
    exact congrFun (if_neg other) after
  rw [readAs, Header.read, layout_eq, List.foldlM_cons]
  exact bind_of_error (bind_of_error refused)

theorem readAs_of_byteField_error {fault : Fault}
    (failed : Reader.byteField .kind cursor = .error fault after) (kind : Kind) :
    readAs kind cursor = .error fault after := by
  rw [readAs, Header.read, layout_eq, List.foldlM_cons]
  exact bind_of_error (bind_of_error (Header.readField_kind_of_error kind {} failed))

theorem read_of_byteField_error {fault : Fault}
    (failed : Reader.byteField .kind cursor = .error fault after) :
    read cursor = .error fault after := by
  have unseen : peekKind cursor = .error fault after := by
    rw [peekKind, Reader.Reads.run_get_bind]
    exact bind_of_error failed
  exact bind_of_error unseen

theorem read_of_readAs (found : readAs kind cursor = .ok command after) :
    read cursor = .ok command after := by
  cases named : Reader.byteField .kind cursor with
  | error fault stopped =>
      rw [readAs_of_byteField_error named] at found
      cases found
  | ok byte stopped =>
      by_cases same : byte = kind.byte
      · rw [same] at named
        rw [read_of_byteField named, found]
      · rw [readAs_of_byteField_ne named same] at found
        cases found

/-! ## Decoding as a kind -/

variable {bytes : List UInt8} {used : Nat}

theorem decodeAs_eq_ok_iff :
    decodeAs kind bytes = .ok command ↔
      ∃ after, readAs kind (.start bytes) = .ok command after := by
  unfold decodeAs
  cases readAs kind (.start bytes) with
  | ok found after =>
      constructor
      · rintro ⟨⟩
        exact ⟨after, rfl⟩
      · rintro ⟨_, ⟨⟩⟩
        rfl
  | error fault after => exact ⟨nofun, fun ⟨_, found⟩ => nomatch found⟩

theorem decodeAs_eq_error_iff {fault : Fault} :
    decodeAs kind bytes = .error fault ↔
      ∃ stopped, readAs kind (.start bytes) = .error fault stopped := by
  unfold decodeAs
  cases readAs kind (.start bytes) with
  | ok found after => exact ⟨nofun, fun ⟨_, failed⟩ => nomatch failed⟩
  | error other stopped =>
      constructor
      · rintro ⟨⟩
        exact ⟨stopped, rfl⟩
      · rintro ⟨_, ⟨⟩⟩
        rfl

theorem decodeAs_iff :
    decodeAs kind bytes = .ok command ↔
      (∃ used, decode bytes = .ok (command, used)) ∧ command.kind = kind := by
  simp only [decodeAs_eq_ok_iff, decode_eq_ok_iff]
  constructor
  · rintro ⟨after, found⟩
    obtain ⟨_, _, _, _, same, _⟩ := spells_header kind _ _ _ _ found
    exact ⟨⟨_, after, read_of_readAs found, rfl⟩, same⟩
  · rintro ⟨⟨_, after, found, -⟩, rfl⟩
    obtain ⟨kind, named⟩ := readAs_of_read found
    obtain ⟨_, _, _, _, same, _⟩ := spells_header kind _ _ _ _ named
    exact ⟨after, same ▸ named⟩

/-! ## Replaced tags -/

/-- With one tag replaced the kind field is refused at once, or it still names the kind. -/
theorem byteField_of_ne {before behind : List Tag} {tag : Tag}
    (layout : kind.layout = before ++ tag :: behind) (header : Header)
    (other : byte ≠ tag.byte) (rest : List UInt8) :
    let changed := Cursor.start
      ((before.flatMap fun tag => (header.field kind tag).bytes) ++ byte :: rest)
    (∃ stopped, Reader.byteField .kind changed =
      .error (.violation (total (before.map Tag.size)) (.wrongTag tag byte)) stopped) ∨
      ∃ after, Reader.byteField .kind changed = .ok kind.byte after := by
  rw [layout_eq] at layout
  cases before with
  | nil =>
      obtain ⟨rfl, -⟩ := List.cons.inj layout
      exact .inl ⟨_, bind_of_error (Reader.field_of_ne other rest 0)⟩
  | cons first before =>
      obtain ⟨rfl, -⟩ := List.cons.inj layout
      have names : (Reader.byteField .kind).Reads (header.field kind .kind).bytes kind.byte :=
        (Reader.Reads.field (.kind kind.byte)).bind_nil (Reader.Reads.pure _)
      rw [List.flatMap_cons, List.append_assoc]
      exact .inr ⟨_, names _ 0⟩

/-- With one tag replaced no kind reads the packet.  The kind that it names, and with it the
reader that goes by the name, stops at this tag. -/
theorem decode_of_ne {before behind : List Tag} {tag : Tag}
    (layout : kind.layout = before ++ tag :: behind) (header : Header)
    (other : byte ≠ tag.byte) (rest : List UInt8) :
    let changed := (before.flatMap fun tag => (header.field kind tag).bytes) ++ byte :: rest
    let fault := Fault.violation (total (before.map Tag.size)) (.wrongTag tag byte)
    decode changed = .error fault ∧ decodeAs kind changed = .error fault ∧
      ∀ named, ∃ offset cause, decodeAs named changed = .error (.violation offset cause) := by
  intro changed fault
  obtain ⟨stopped, refused⟩ := Header.read_of_ne layout header other rest
  have stops : readAs kind (.start changed) = .error fault stopped := bind_of_error refused
  have own : decodeAs kind changed = .error fault := decodeAs_eq_error_iff.mpr ⟨_, stops⟩
  rcases byteField_of_ne layout header other rest with ⟨stopped, failed⟩ | ⟨after, names⟩
  · refine ⟨decode_eq_error_iff.mpr ⟨_, read_of_byteField_error failed⟩, own, fun named => ?_⟩
    exact ⟨_, _, decodeAs_eq_error_iff.mpr ⟨_, readAs_of_byteField_error failed named⟩⟩
  · refine ⟨decode_eq_error_iff.mpr ⟨_, (read_of_byteField names).trans stops⟩, own,
      fun named => ?_⟩
    by_cases same : kind.byte = named.byte
    · rw [← Kind.byte_injective same]
      exact ⟨_, _, own⟩
    · exact ⟨_, _, decodeAs_eq_error_iff.mpr ⟨_, readAs_of_byteField_ne names same⟩⟩

/-- To decode a packet as a kind is to decode it and to find this kind, so that no packet is
accepted as two kinds.  Where the tag of one of its header fields is replaced, whatever the byte, no
kind accepts the packet any more, and decoding says which tag is missing and where. -/
theorem decodeAs_strict (bytes : List UInt8) :
    (∀ kind command, decodeAs kind bytes = .ok command ↔
      (∃ used, decode bytes = .ok (command, used)) ∧ command.kind = kind) ∧
    (∀ kind other command found, decodeAs kind bytes = .ok command →
      decodeAs other bytes = .ok found → kind = other) ∧
    ∀ command used, decode bytes = .ok (command, used) →
      ∀ before tag behind, command.kind.layout = before ++ tag :: behind →
        let place := total (before.map Tag.size)
        bytes[place]? = some tag.byte ∧ ∀ byte, byte ≠ tag.byte →
          let fault := Fault.violation place (.wrongTag tag byte)
          decode (bytes.set place byte) = .error fault ∧
            decodeAs command.kind (bytes.set place byte) = .error fault ∧
            ∀ kind, ∃ offset cause,
              decodeAs kind (bytes.set place byte) = .error (.violation offset cause) := by
  refine ⟨fun kind command => decodeAs_iff, fun kind other command found first second => ?_,
    fun command used decoded before tag behind layout => ?_⟩
  · obtain ⟨⟨_, decoded⟩, rfl⟩ := decodeAs_iff.mp first
    obtain ⟨⟨_, again⟩, rfl⟩ := decodeAs_iff.mp second
    rw [decoded] at again
    cases again
    rfl
  · obtain ⟨after, named⟩ := decodeAs_eq_ok_iff.mp (decodeAs_iff.mpr ⟨⟨used, decoded⟩, rfl⟩)
    obtain ⟨_, rest, rfl, -, -, body, rfl⟩ := spells_header _ _ _ _ _ named
    obtain ⟨fields, split⟩ := Header.bytes_eq_of_layout layout command.header
    have place := command.header.length_fields command.kind before
    simp only [split, List.append_assoc, List.cons_append, ← place]
    refine ⟨?_, fun byte other => ?_⟩
    · rw [List.getElem?_append_right (Nat.le_refl _), Nat.sub_self, List.getElem?_cons_zero]
    · rw [List.set_append_right _ _ (Nat.le_refl _), Nat.sub_self, List.set_cons_zero, place]
      exact decode_of_ne layout command.header other _

/-- What keeps a connection alive is nothing else, and its player does not pass for a relay, which
takes as many bytes. -/
theorem decodeAs_strict_keepAlive :
    decode [84, 9, 82, 0, 80, 3, 68] = .ok (⟨⟨3, 0, 0, 0⟩, .keepAlive⟩, 7) ∧
      decodeAs .keepAlive [84, 9, 82, 0, 80, 3, 68] = .ok ⟨⟨3, 0, 0, 0⟩, .keepAlive⟩ ∧
      (∀ kind found, decodeAs kind [84, 9, 82, 0, 80, 3, 68] = .ok found → kind = .keepAlive) ∧
      decodeAs .keepAlive [84, 9, 82, 0, 82, 3, 68] =
        .error (.violation 4 (.wrongTag .player 82)) := by
  obtain ⟨same, once, replaced⟩ := decodeAs_strict [84, 9, 82, 0, 80, 3, 68]
  have decoded : decode [84, 9, 82, 0, 80, 3, 68] = .ok (⟨⟨3, 0, 0, 0⟩, .keepAlive⟩, 7) := rfl
  have named := (same .keepAlive ⟨⟨3, 0, 0, 0⟩, .keepAlive⟩).mpr ⟨⟨7, decoded⟩, rfl⟩
  have tagged := replaced _ _ decoded [.kind, .relay] .player [.data] rfl
  exact ⟨decoded, named, fun kind found other => once _ _ _ _ other named,
    (tagged.2 82 (by decide)).2.1⟩

end Command

end MatchTape.Packet
