import MatchTape.Tape.Basic

/-!
# Recordings in the making

A draft takes batches frame by frame.  A batch that breaks a rule of the format
is refused and leaves no trace; a frame without commands takes no room at all.
-/

namespace MatchTape.Tape

open Packet Record

/-- A recording to which batches are added. -/
structure Draft where
  sheet : MatchSheet
  packets : Array UInt8 := #[]
  lastFrame : Option UInt32 := none
  deriving DecidableEq, Repr

namespace Draft

def begin (sheet : MatchSheet) : Draft :=
  { sheet }

def packetSize (draft : Draft) : Nat :=
  draft.packets.size

def mostCommands : Nat := 65535

/-- Why a batch that is not empty cannot be added. -/
def objection? (draft : Draft) (batch : Batch) : Option Unrecordable :=
  if draft.lastFrame.any (batch.frame ≤ ·) then
    some (.notLater batch.frame draft.lastFrame)
  else if mostCommands < batch.commands.length then
    some (.tooMany batch.commands.length batch.frame)
  else
    match batch.commands.find? (strays batch.frame) with
    | some stray => some (.strayCommand stray.kind stray.header.frame batch.frame)
    | none =>
        match (batch.commands.filterMap Command.message?).find? (!·.isEncodable) with
        | some message => some (.tooManyRuns message.code message.arguments.length)
        | none =>
            if batch.commands.any (·.kind == .frameInfo) then some .frameInfo else none

def add (batch : Batch) : EStateM Failure Draft Unit := fun draft =>
  if batch.commands.isEmpty then .ok () draft
  else
    match draft.objection? batch with
    | some cause => .error (.unrecordable cause) draft
    | none =>
        .ok () { draft with
          packets := draft.packets ++ batch.bytes
          lastFrame := some batch.frame }

def finish (draft : Draft) (frameCount : UInt32) : List UInt8 :=
  let sheet := { draft.sheet with frameCount }.bytes
  magic ++ version :: Encoding.word32 (UInt32.ofNat sheet.length) ++ sheet ++
    draft.packets.toList

end Draft

end MatchTape.Tape
