import MatchTape.Packet.Tag

/-!
# Kinds of commands

The closed catalogue of command kinds: the byte that names each of them, the
order of its header fields, and the size of the fixed part of its body.
-/

namespace MatchTape.Packet

inductive Kind where
  | ackBoth
  | ackStage1
  | ackStage2
  | frameInfo
  | game
  | playerLeave
  | runAheadMetrics
  | runAhead
  | destroyPlayer
  | keepAlive
  | disconnectChat
  | chat
  | progress
  | loadComplete
  | timeoutGameStart
  | wrapper
  | file
  | fileAnnounce
  | fileProgress
  | frameResendRequest
  | disconnectKeepAlive
  | disconnectPlayer
  | routerQuery
  | routerAck
  | disconnectVote
  | disconnectFrame
  | disconnectScreenOff
  deriving DecidableEq, Repr

namespace Kind

def all : List Kind :=
  [ackBoth, ackStage1, ackStage2, frameInfo, game, playerLeave, runAheadMetrics, runAhead,
    destroyPlayer, keepAlive, disconnectChat, chat, progress, loadComplete, timeoutGameStart,
    wrapper, file, fileAnnounce, fileProgress, frameResendRequest, disconnectKeepAlive,
    disconnectPlayer, routerQuery, routerAck, disconnectVote, disconnectFrame,
    disconnectScreenOff]

/-- The byte that names the kind; 12, 13, 22 and everything above 29 are not in use. -/
def byte : Kind → UInt8
  | ackBoth => 0
  | ackStage1 => 1
  | ackStage2 => 2
  | frameInfo => 3
  | game => 4
  | playerLeave => 5
  | runAheadMetrics => 6
  | runAhead => 7
  | destroyPlayer => 8
  | keepAlive => 9
  | disconnectChat => 10
  | chat => 11
  | progress => 14
  | loadComplete => 15
  | timeoutGameStart => 16
  | wrapper => 17
  | file => 18
  | fileAnnounce => 19
  | fileProgress => 20
  | frameResendRequest => 21
  | disconnectKeepAlive => 23
  | disconnectPlayer => 24
  | routerQuery => 25
  | routerAck => 26
  | disconnectVote => 27
  | disconnectFrame => 28
  | disconnectScreenOff => 29

def ofByte? (byte : UInt8) : Option Kind :=
  all.find? (·.byte == byte)

def name : Kind → String
  | ackBoth => "AckBoth"
  | ackStage1 => "AckStage1"
  | ackStage2 => "AckStage2"
  | frameInfo => "FrameInfo"
  | game => "GameCommand"
  | playerLeave => "PlayerLeave"
  | runAheadMetrics => "RunAheadMetrics"
  | runAhead => "RunAhead"
  | destroyPlayer => "DestroyPlayer"
  | keepAlive => "KeepAlive"
  | disconnectChat => "DisconnectChat"
  | chat => "Chat"
  | progress => "Progress"
  | loadComplete => "LoadComplete"
  | timeoutGameStart => "TimeoutGameStart"
  | wrapper => "Wrapper"
  | file => "File"
  | fileAnnounce => "FileAnnounce"
  | fileProgress => "FileProgress"
  | frameResendRequest => "FrameResendRequest"
  | disconnectKeepAlive => "DisconnectKeepAlive"
  | disconnectPlayer => "DisconnectPlayer"
  | routerQuery => "RouterQuery"
  | routerAck => "RouterAck"
  | disconnectVote => "DisconnectVote"
  | disconnectFrame => "DisconnectFrame"
  | disconnectScreenOff => "DisconnectScreenOff"

/-- The header fields of the kind, in the order in which they are sent. -/
def layout : Kind → List Tag
  | ackBoth | ackStage1 | ackStage2 => [.kind, .player, .data]
  | frameInfo | game | chat => [.kind, .frame, .relay, .player, .serial, .data]
  | playerLeave | runAhead | destroyPlayer => [.kind, .relay, .frame, .player, .serial, .data]
  | keepAlive | disconnectKeepAlive | disconnectChat | progress | routerQuery | routerAck =>
      [.kind, .relay, .player, .data]
  | runAheadMetrics | loadComplete | timeoutGameStart | wrapper | file | fileAnnounce
  | fileProgress | frameResendRequest | disconnectPlayer | disconnectVote | disconnectFrame
  | disconnectScreenOff =>
      [.kind, .relay, .player, .serial, .data]

def carries (kind : Kind) (tag : Tag) : Bool :=
  kind.layout.contains tag

def headerSize (kind : Kind) : Nat :=
  total (kind.layout.map Tag.size)

/-- Bytes of the body that every command of the kind has: fixed fields and the
fields that declare a length, but no text, file name or data. -/
def fixedBodySize : Kind → Nat
  | ackBoth | ackStage1 | ackStage2 => 3
  | frameInfo => 2
  | game => 0
  | playerLeave => 1
  | runAheadMetrics => 6
  | runAhead => 3
  | destroyPlayer => 4
  | disconnectChat => 1
  | chat => 5
  | progress => 1
  | wrapper => 22
  | file => 4
  | fileAnnounce => 3
  | fileProgress => 6
  | frameResendRequest => 4
  | disconnectPlayer | disconnectVote => 5
  | disconnectFrame | disconnectScreenOff => 4
  | keepAlive | disconnectKeepAlive | routerQuery | routerAck | loadComplete
  | timeoutGameStart => 0

def isVariable : Kind → Bool
  | game | chat | disconnectChat | wrapper | file | fileAnnounce => true
  | _ => false

/-- Bytes of a packet of the kind whose variable part has the given length; a
kind without such a part ignores the length. -/
def packetSize (kind : Kind) (variableSize : Nat) : Nat :=
  kind.headerSize + kind.fixedBodySize + if kind.isVariable then variableSize else 0

@[simp] theorem ofByte?_byte (kind : Kind) : ofByte? kind.byte = some kind := by
  cases kind <;> decide

theorem byte_of_ofByte? {byte : UInt8} {kind : Kind} (found : ofByte? byte = some kind) :
    kind.byte = byte := by
  have := List.find?_some found
  simpa using this

end Kind

end MatchTape.Packet
