import MatchTape.Packet.Decoding
import MatchTape.Packet.Encoding

/-!
# Batches

The commands that take effect in one frame, in the order in which they were
recorded.  A command that reports a checksum says what the frame should lead to;
all others are given to the world.
-/

namespace MatchTape.Tape

open Packet

structure Batch where
  frame : UInt32
  commands : List Command
  deriving DecidableEq, Repr

def strays (frame : UInt32) (command : Command) : Bool :=
  command.kind.carries .frame && command.header.frame != frame

namespace Batch

def orders (batch : Batch) : List Command :=
  batch.commands.filter (·.checksum?.isNone)

/-- The checksum that the frame should lead to; of several reports the last counts. -/
def expected? (batch : Batch) : Option UInt32 :=
  (batch.commands.filterMap Command.checksum?).getLast?

/-- The command in front of the batch, which says how many follow. -/
def opening (batch : Batch) : Command where
  header := {
    player := (batch.commands.head?.map fun command => command.header.player).getD 0
    frame := batch.frame }
  body := .frameInfo (UInt16.ofNat batch.commands.length)

def bytes (batch : Batch) : List UInt8 :=
  batch.opening.bytes ++ batch.commands.flatMap Command.bytes

end Batch

end MatchTape.Tape
