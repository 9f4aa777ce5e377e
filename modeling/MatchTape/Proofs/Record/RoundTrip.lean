import MatchTape.Proofs.Record.Checkpoint
import MatchTape.Proofs.Record.MatchSheet

/-!
# Records of what is in memory

No text and no bytes in memory are as long as two to the power of 63.  A record can tell all lengths
below two to the power of 64, which leaves room for the seats that are records inside of a record.
So every sheet and every checkpoint that there can be is read back from its record.
-/

namespace MatchTape.Record

structure MatchSheet.InMemory (sheet : MatchSheet) : Prop where
  map : (Text.utf8 sheet.map).length < 2 ^ 63
  host : (Text.utf8 sheet.host).length < 2 ^ 63
  players : ∀ seat ∈ sheet.roster, (Text.utf8 seat.player).length < 2 ^ 63
  build : (Text.utf8 sheet.build).length < 2 ^ 63

structure Checkpoint.InMemory (checkpoint : Checkpoint) : Prop where
  recording : (Text.utf8 checkpoint.recording).length < 2 ^ 63
  digest : (Text.utf8 checkpoint.digest).length < 2 ^ 63
  map : (Text.utf8 checkpoint.map).length < 2 ^ 63
  host : (Text.utf8 checkpoint.host).length < 2 ^ 63
  state : checkpoint.state.length < 2 ^ 63

theorem MatchSheet.InMemory.short {sheet : MatchSheet} (held : sheet.InMemory) : sheet.Short where
  map := Nat.lt_trans held.map (by decide)
  host := Nat.lt_trans held.host (by decide)
  seats seat member := by
    have player := held.players seat member
    have size := seat.length_bytes_le
    omega
  build := Nat.lt_trans held.build (by decide)

theorem Checkpoint.InMemory.short {checkpoint : Checkpoint} (held : checkpoint.InMemory) :
    checkpoint.Short where
  recording := Nat.lt_trans held.recording (by decide)
  digest := Nat.lt_trans held.digest (by decide)
  map := Nat.lt_trans held.map (by decide)
  host := Nat.lt_trans held.host (by decide)
  state := Nat.lt_trans held.state (by decide)

/-- A sheet and a checkpoint are read back from their records as they were, all seats of the sheet
in their order. -/
theorem records_read_back {sheet : MatchSheet} {checkpoint : Checkpoint}
    (sheetHeld : sheet.InMemory) (checkpointHeld : checkpoint.InMemory) :
    MatchSheet.ofBytes? sheet.bytes = some sheet ∧
      Checkpoint.ofBytes? checkpoint.bytes = some checkpoint :=
  ⟨MatchSheet.ofBytes?_of_short sheetHeld.short, Checkpoint.ofBytes?_bytes checkpointHeld.short⟩

/-- A sheet with seats that are empty, alike, or at the ends of their ranges. -/
def crowded : MatchSheet where
  map := "Höhe"
  seed := 4294967295
  frameCount := 128
  roster := [{}, { slot := 4294967295, player := "é", team := -1 }, {}, { team := Int32.minValue }]

def distant : Checkpoint where
  recording := "a.rep"
  frame := 4294967295
  offset := 18446744073709551615
  playback := true
  state := [0, 255]

theorem records_read_back_crowded :
    MatchSheet.ofBytes? crowded.bytes = some crowded ∧
      Checkpoint.ofBytes? distant.bytes = some distant :=
  records_read_back ⟨by decide, by decide, by decide, by decide⟩
    ⟨by decide, by decide, by decide, by decide, by decide⟩

/-- A team below zero is written as a number of 64 bits, which takes ten digits. -/
example : ({ team := -1 } : Seat).bytes = [24, 255, 255, 255, 255, 255, 255, 255, 255, 255, 1] := by
  decide

end MatchTape.Record
