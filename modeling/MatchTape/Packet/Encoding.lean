import MatchTape.Packet.Command

/-!
# Encoding commands

A packet is the header of the command's kind followed by the body: fixed fields
with the low byte first, and a variable part whose length is written in front of
it or, for file names, marked by a zero byte at its end.
-/

namespace MatchTape.Packet

namespace Encoding

def terminated (text : String) : List UInt8 :=
  Text.utf8 (Text.beforeNul text) ++ [0]

def units (units : List UInt16) : List UInt8 :=
  units.flatMap fun unit => Word.toBytes 2 unit.toNat

def counted (list : List UInt16) : List UInt8 :=
  UInt8.ofNat list.length :: units list

def word16 (value : UInt16) : List UInt8 :=
  Word.toBytes 2 value.toNat

def word32 (value : UInt32) : List UInt8 :=
  Word.toBytes 4 value.toNat

def word64 (value : UInt64) : List UInt8 :=
  Word.toBytes 8 value.toNat

def signed32 (value : Int32) : List UInt8 :=
  word32 value.toUInt32

def real (value : Binary32) : List UInt8 :=
  word32 value.bits

end Encoding

open Encoding

/-- The fields of a fragment; the length of the data stands before its offset. -/
def Fragment.bytes (fragment : Fragment) : List UInt8 :=
  word16 fragment.wrapped ++ word32 fragment.number ++ word32 fragment.count ++
    word32 fragment.total ++ word32 fragment.length ++ word32 fragment.offset ++ fragment.data

namespace Body

def bytes : Body → List UInt8
  | ackBoth serial player | ackStage1 serial player | ackStage2 serial player =>
      word16 serial ++ [player]
  | frameInfo count => word16 count
  | game message => message.bytes
  | playerLeave player => [player]
  | runAheadMetrics latency rate => real latency ++ word16 rate
  | runAhead frames rate => word16 frames ++ [rate]
  | destroyPlayer index => word32 index
  | disconnectChat text => counted (textUnits text)
  | chat text mask => counted (textUnits text) ++ signed32 mask
  | progress percentage => [percentage]
  | wrapper fragment => fragment.bytes
  | file name data => terminated name ++ word32 (UInt32.ofNat data.length) ++ data
  | fileAnnounce name id mask => terminated name ++ word16 id ++ [mask]
  | fileProgress id value => word16 id ++ signed32 value
  | frameResendRequest frame => word32 frame
  | disconnectPlayer slot frame | disconnectVote slot frame => slot :: word32 frame
  | disconnectFrame frame | disconnectScreenOff frame => word32 frame
  | keepAlive | loadComplete | timeoutGameStart | disconnectKeepAlive | routerQuery
  | routerAck => []

/-- Bytes of the variable part of a body, reckoned without encoding it. -/
def variableSize : Body → Nat
  | game message => message.size
  | disconnectChat text | chat text _ => 2 * (textUnits text).length
  | wrapper fragment => fragment.data.length
  | file name data => (Text.utf8 (Text.beforeNul name)).length + 1 + data.length
  | fileAnnounce name _ _ => (Text.utf8 (Text.beforeNul name)).length + 1
  | _ => 0

end Body

namespace Command

def bytes (command : Command) : List UInt8 :=
  command.header.bytes command.kind ++ command.body.bytes

def size (command : Command) : Nat :=
  command.kind.packetSize command.body.variableSize

end Command

end MatchTape.Packet
