import MatchTape.Digest
import MatchTape.Failure
import MatchTape.Tape.Batch

/-!
# Recordings that are open for playing

A recording is four letters, a version, the length of its sheet, the sheet, and
then packets: for each frame with traffic an opening command that says how many
commands follow, and those commands.  The frames of the batches ascend.  A tape
is such a recording with a place from which the next packet is read; an
operation that fails leaves the tape as it was.
-/

namespace MatchTape

open Packet Record

structure Tape where
  name : String
  contents : List UInt8
  sheet : MatchSheet
  digest : String
  packetsStart : Nat
  position : Nat
  lastFrame : Option UInt32
  rest : List UInt8
  rest_eq : rest = contents.drop position
  deriving Repr

namespace Tape

def magic : List UInt8 := Text.utf8 "LKRP"

def version : UInt8 := 1

def preambleSize : Nat := 9

def ofBytes (name : String) (contents : List UInt8) : Except Failure Tape :=
  match contents.take preambleSize with
  | [a, b, c, d, found, l0, l1, l2, l3] =>
      if [a, b, c, d] ≠ magic then .error .notRecording
      else if found ≠ version then .error (.unsupportedVersion found)
      else
        let length := Word.ofBytes [l0, l1, l2, l3]
        let start := preambleSize + length
        if contents.length < start then
          .error (.corrupt preambleSize (.sheetLength length))
        else
          match MatchSheet.ofBytes? ((contents.drop preambleSize).take length) with
          | none => .error .badSheet
          | some sheet =>
              .ok {
                name, contents, sheet
                digest := Digest.Sha256.hex contents
                packetsStart := start
                position := start
                lastFrame := none
                rest := contents.drop start
                rest_eq := rfl }
  | _ => .error .notRecording

def frameCount (tape : Tape) : UInt32 :=
  tape.sheet.frameCount

def isExhausted (tape : Tape) : Bool :=
  tape.rest.isEmpty

def skip (tape : Tape) (count : Nat) (frame : UInt32) : Tape :=
  { tape with
    position := tape.position + count
    lastFrame := some frame
    rest := tape.rest.drop count
    rest_eq := by rw [tape.rest_eq, List.drop_drop] }

/-- Go to a place among the packets.  What was read before is forgotten. -/
def seek (offset : Nat) : EStateM Failure Tape Unit := fun tape =>
  if tape.packetsStart ≤ offset ∧ offset ≤ tape.contents.length then
    .ok () { tape with
      position := offset
      lastFrame := none
      rest := tape.contents.drop offset
      rest_eq := rfl }
  else
    .error (.corrupt offset (.outsidePackets tape.packetsStart tape.contents.length)) tape

/-- The packet at the front of the bytes, which stand at the given offset. -/
def packetAt (offset : Nat) (bytes : List UInt8) : Except Failure (Command × Nat) :=
  match Command.decode bytes with
  | .ok found => .ok found
  | .error fault => .error (.badPacket offset fault)

/-- The opening of the next batch: its frame, how many commands follow, and the
length of its packet. -/
def opening (tape : Tape) : Except Failure (UInt32 × UInt16 × Nat) :=
  match packetAt tape.position tape.rest with
  | .error failure => .error failure
  | .ok (command, used) =>
      match command.body with
      | .frameInfo count => .ok (command.header.frame, count, used)
      | _ => .error (.corrupt tape.position (.notBatch command.kind))

/-- Read the commands of a batch, `left` of which are still to come, from bytes
that stand at the given offset. -/
def readCommands (frame : UInt32) :
    Nat → Nat → List UInt8 → Array Command → Except Failure (Array Command × Nat)
  | 0, offset, _, found => .ok (found, offset)
  | left + 1, offset, bytes, found =>
      if bytes.isEmpty then
        .error (.corrupt offset (.shortBatch frame (found.size + (left + 1)) found.size))
      else
        match packetAt offset bytes with
        | .error failure => .error failure
        | .ok (command, used) =>
            if strays frame command then
              .error (.corrupt offset (.strayCommand command.kind command.header.frame frame))
            else
              readCommands frame left (offset + used) (bytes.drop used) (found.push command)

def batchAhead (tape : Tape) : Except Failure (Batch × Nat) := do
  let (frame, count, used) ← tape.opening
  if tape.lastFrame.any (frame ≤ ·) then
    throw (.corrupt tape.position (.notLater frame tape.lastFrame))
  let (commands, stop) ←
    readCommands frame count.toNat (tape.position + used) (tape.rest.drop used) #[]
  return (⟨frame, commands.toList⟩, stop)

def peek (tape : Tape) : Except Failure (Option UInt32) :=
  if tape.isExhausted then .ok none
  else tape.opening.map fun found => some found.1

def next : EStateM Failure Tape (Option Batch) := fun tape =>
  if tape.isExhausted then .ok none tape
  else
    match tape.batchAhead with
    | .error failure => .error failure tape
    | .ok (batch, stop) => .ok (some batch) (tape.skip (stop - tape.position) batch.frame)

/-- Read the next batch if it is for the given frame.  A batch for an earlier frame
has been missed. -/
def take (frame : UInt32) : EStateM Failure Tape (Option Batch) := fun tape =>
  match tape.peek with
  | .error failure => .error failure tape
  | .ok none => .ok none tape
  | .ok (some found) =>
      if found = frame then next tape
      else if found < frame then
        .error (.corrupt tape.position (.missedBatch found frame)) tape
      else .ok none tape

end Tape

end MatchTape
