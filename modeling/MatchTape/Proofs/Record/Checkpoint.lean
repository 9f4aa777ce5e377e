import MatchTape.Proofs.Record.Entry
import MatchTape.Record.Checkpoint

/-!
# Checkpoints survive their records

A checkpoint whose texts and state are short enough for their lengths to be told is
read back from its record as it was.
-/

namespace MatchTape.Record.Checkpoint

open Entry

structure Short (checkpoint : Checkpoint) : Prop where
  recording : (Text.utf8 checkpoint.recording).length < 2 ^ 64
  digest : (Text.utf8 checkpoint.digest).length < 2 ^ 64
  map : (Text.utf8 checkpoint.map).length < 2 ^ 64
  host : (Text.utf8 checkpoint.host).length < 2 ^ 64
  state : checkpoint.state.length < 2 ^ 64

theorem readable_entries {checkpoint : Checkpoint} (short : checkpoint.Short) :
    ∀ entry ∈ checkpoint.entries, entry.Readable := by
  intro entry member
  simp only [entries, List.mem_append] at member
  rcases member with (((((((member | member) | member) | member) | member) | member) | member) |
    member) | member
  · exact readable_ofBlock (by decide) short.recording entry member
  · exact readable_ofBlock (by decide) short.digest entry member
  · exact readable_ofBlock (by decide) short.map entry member
  · exact readable_ofBlock (by decide) short.host entry member
  · exact readable_ofNumber (by decide) _ entry member
  · exact readable_ofNumber (by decide) _ entry member
  · exact readable_ofNumber (by decide) _ entry member
  · exact readable_ofNumber (by decide) _ entry member
  · exact readable_ofBlock (by decide) short.state entry member

theorem foldlM_entries (checkpoint : Checkpoint) :
    checkpoint.entries.foldlM absorb {} = some checkpoint := by
  obtain ⟨recording, digest, map, host, frame, accumulator, offset, playback, state⟩ := checkpoint
  have withRecording : (ofText 1 recording).foldlM absorb {} = some { recording } :=
    foldlM_ofText (by simp [absorb, text?]) (by simp +contextual)
  have withDigest : (ofText 2 digest).foldlM absorb { recording } = some { recording, digest } :=
    foldlM_ofText (by simp [absorb, text?]) (by simp +contextual)
  have withMap : (ofText 3 map).foldlM absorb { recording, digest } =
      some { recording, digest, map } :=
    foldlM_ofText (by simp [absorb, text?]) (by simp +contextual)
  have withHost : (ofText 4 host).foldlM absorb { recording, digest, map } =
      some { recording, digest, map, host } :=
    foldlM_ofText (by simp [absorb, text?]) (by simp +contextual)
  have withFrame : (ofNumber 5 frame.toUInt64).foldlM absorb { recording, digest, map, host } =
      some { recording, digest, map, host, frame } :=
    foldlM_ofNumber32 (by simp [absorb, number?]) (by simp +contextual)
  have withAccumulator : (ofNumber 6 accumulator.toUInt64).foldlM absorb
      { recording, digest, map, host, frame } =
      some { recording, digest, map, host, frame, accumulator } :=
    foldlM_ofNumber32 (by simp [absorb, number?]) (by simp +contextual)
  have withOffset : (ofNumber 7 offset).foldlM absorb
      { recording, digest, map, host, frame, accumulator } =
      some { recording, digest, map, host, frame, accumulator, offset } :=
    foldlM_ofNumber (by simp [absorb, number?]) (by simp +contextual)
  have withPlayback : (ofNumber 8 (if playback then 1 else 0)).foldlM absorb
      { recording, digest, map, host, frame, accumulator, offset } =
      some { recording, digest, map, host, frame, accumulator, offset, playback } :=
    foldlM_ofNumber (by cases playback <;> simp [absorb, number?]) (by cases playback <;> simp)
  have withState : (ofBlock 9 state).foldlM absorb
      { recording, digest, map, host, frame, accumulator, offset, playback } =
      some { recording, digest, map, host, frame, accumulator, offset, playback, state } :=
    foldlM_ofBlock (by simp [absorb, block?]) (by simp +contextual)
  simp only [entries, List.foldlM_append, Option.bind_eq_bind, Option.bind_some, withRecording,
    withDigest, withMap, withHost, withFrame, withAccumulator, withOffset, withPlayback, withState]

/-- A short checkpoint is read back from its record. -/
theorem ofBytes?_bytes {checkpoint : Checkpoint} (short : checkpoint.Short) :
    ofBytes? checkpoint.bytes = some checkpoint := by
  rw [ofBytes?, bytes, list?_bytes (by decide) (readable_entries short)]
  exact foldlM_entries checkpoint

end MatchTape.Record.Checkpoint
