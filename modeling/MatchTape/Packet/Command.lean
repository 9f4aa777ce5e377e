import MatchTape.Packet.Header
import MatchTape.Packet.Message

/-!
# Commands

A command is a header and a body.  The body decides the kind, and the kind
decides which header fields are sent.  `Command.sent` is the command as it
arrives: header fields outside the layout are zero, chat is cut to 255 units,
file names end at their first NUL, and a message keeps what its runs cover.
-/

namespace MatchTape.Packet

structure Fragment where
  wrapped : UInt16
  number : UInt32
  count : UInt32
  total : UInt32
  offset : UInt32
  data : List UInt8
  deriving DecidableEq, Repr

def Fragment.length (fragment : Fragment) : UInt32 :=
  UInt32.ofNat fragment.data.length

/-- What a command says besides its header. -/
inductive Body where
  | ackBoth (serial : UInt16) (player : UInt8)
  | ackStage1 (serial : UInt16) (player : UInt8)
  | ackStage2 (serial : UInt16) (player : UInt8)
  | frameInfo (count : UInt16)
  | game (message : Message)
  | playerLeave (player : UInt8)
  | runAheadMetrics (latency : Binary32) (rate : UInt16)
  | runAhead (frames : UInt16) (rate : UInt8)
  | destroyPlayer (index : UInt32)
  | keepAlive
  | disconnectChat (text : String)
  | chat (text : String) (mask : Int32)
  | progress (percentage : UInt8)
  | loadComplete
  | timeoutGameStart
  | wrapper (fragment : Fragment)
  | file (name : String) (data : List UInt8)
  | fileAnnounce (name : String) (id : UInt16) (mask : UInt8)
  | fileProgress (id : UInt16) (progress : Int32)
  | frameResendRequest (frame : UInt32)
  | disconnectKeepAlive
  | disconnectPlayer (slot : UInt8) (frame : UInt32)
  | routerQuery
  | routerAck
  | disconnectVote (slot : UInt8) (frame : UInt32)
  | disconnectFrame (frame : UInt32)
  | disconnectScreenOff (frame : UInt32)
  deriving DecidableEq, Repr

namespace Body

def kind : Body → Kind
  | ackBoth _ _ => .ackBoth
  | ackStage1 _ _ => .ackStage1
  | ackStage2 _ _ => .ackStage2
  | frameInfo _ => .frameInfo
  | game _ => .game
  | playerLeave _ => .playerLeave
  | runAheadMetrics _ _ => .runAheadMetrics
  | runAhead _ _ => .runAhead
  | destroyPlayer _ => .destroyPlayer
  | keepAlive => .keepAlive
  | disconnectChat _ => .disconnectChat
  | chat _ _ => .chat
  | progress _ => .progress
  | loadComplete => .loadComplete
  | timeoutGameStart => .timeoutGameStart
  | wrapper _ => .wrapper
  | file _ _ => .file
  | fileAnnounce _ _ _ => .fileAnnounce
  | fileProgress _ _ => .fileProgress
  | frameResendRequest _ => .frameResendRequest
  | disconnectKeepAlive => .disconnectKeepAlive
  | disconnectPlayer _ _ => .disconnectPlayer
  | routerQuery => .routerQuery
  | routerAck => .routerAck
  | disconnectVote _ _ => .disconnectVote
  | disconnectFrame _ => .disconnectFrame
  | disconnectScreenOff _ => .disconnectScreenOff

def mostUnits : Nat := 255

/-- The part of a chat text that is sent: whole characters, at most 255 units. -/
def sentText (text : String) : String :=
  String.ofList (Text.fitting mostUnits text.toList)

def textUnits (text : String) : List UInt16 :=
  Text.cut mostUnits (Text.utf16 text.toList)

/-- The body as it arrives. -/
def sent : Body → Body
  | game message => game message.sent
  | disconnectChat text => disconnectChat (sentText text)
  | chat text mask => chat (sentText text) mask
  | file name data => file (Text.beforeNul name) data
  | fileAnnounce name id mask => fileAnnounce (Text.beforeNul name) id mask
  | other => other

/-- Equality that compares numbers by value. -/
def numericallyEqual : Body → Body → Bool
  | game left, game right => left.numericallyEqual right
  | runAheadMetrics latency rate, runAheadMetrics latency' rate' =>
      latency.numericallyEqual latency' && rate == rate'
  | left, right => left == right

end Body

structure Command where
  header : Header
  body : Body
  deriving DecidableEq, Repr

namespace Command

def kind (command : Command) : Kind :=
  command.body.kind

def message? (command : Command) : Option Message :=
  match command.body with
  | .game message => some message
  | _ => none

def checksum? (command : Command) : Option UInt32 :=
  command.message?.bind Message.checksum?

def sent (command : Command) : Command :=
  ⟨command.header.normalized command.kind, command.body.sent⟩

/-- Equality that compares numbers by value. -/
def numericallyEqual (left right : Command) : Bool :=
  left.header == right.header && left.body.numericallyEqual right.body

end Command

end MatchTape.Packet
