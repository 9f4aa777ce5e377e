import MatchTape.Packet.Command

/-!
# Decoding commands

The kind byte at the front decides the layout of everything that follows.  A
packet ends where its body ends; bytes beyond belong to the next packet.
-/

namespace MatchTape.Packet

namespace Reader

def chatText : Reader String := do
  let count ← word8
  let offset ← position
  let found ← units count.toNat
  match Text.ofUtf16? found with
  | some chars => return String.ofList chars
  | none => throw (.badText offset)

def sizedBytes : Reader (List UInt8) := do
  let length ← word32
  bytes length.toNat

end Reader

/-- Read a fragment.  Its number must be below the count and its data inside the
total; both are checked after the data has been read. -/
def Fragment.read : Reader Fragment := do
  let wrapped ← Reader.word16
  let number ← Reader.word32
  let count ← Reader.word32
  let total ← Reader.word32
  let length ← Reader.word32
  let start ← Reader.word32
  let offset ← Reader.position
  let data ← Reader.bytes length.toNat
  if count ≤ number then
    throw (.violation offset (.fragmentNumber number count))
  else if total.toNat < start.toNat + length.toNat then
    throw (.violation offset (.fragmentRange start length total))
  else
    return ⟨wrapped, number, count, total, start, data⟩

namespace Body

def read : Kind → Reader Body
  | .ackBoth => do return ackBoth (← Reader.word16) (← Reader.word8)
  | .ackStage1 => do return ackStage1 (← Reader.word16) (← Reader.word8)
  | .ackStage2 => do return ackStage2 (← Reader.word16) (← Reader.word8)
  | .frameInfo => do return frameInfo (← Reader.word16)
  | .game => do return game (← Message.read)
  | .playerLeave => do return playerLeave (← Reader.word8)
  | .runAheadMetrics => do return runAheadMetrics (← Reader.real) (← Reader.word16)
  | .runAhead => do return runAhead (← Reader.word16) (← Reader.word8)
  | .destroyPlayer => do return destroyPlayer (← Reader.word32)
  | .keepAlive => return keepAlive
  | .disconnectChat => do return disconnectChat (← Reader.chatText)
  | .chat => do return chat (← Reader.chatText) (← Reader.signed32)
  | .progress => do return progress (← Reader.word8)
  | .loadComplete => return loadComplete
  | .timeoutGameStart => return timeoutGameStart
  | .wrapper => do return wrapper (← Fragment.read)
  | .file => do return file (← Reader.terminated) (← Reader.sizedBytes)
  | .fileAnnounce => do
      return fileAnnounce (← Reader.terminated) (← Reader.word16) (← Reader.word8)
  | .fileProgress => do return fileProgress (← Reader.word16) (← Reader.signed32)
  | .frameResendRequest => do return frameResendRequest (← Reader.word32)
  | .disconnectKeepAlive => return disconnectKeepAlive
  | .disconnectPlayer => do return disconnectPlayer (← Reader.word8) (← Reader.word32)
  | .routerQuery => return routerQuery
  | .routerAck => return routerAck
  | .disconnectVote => do return disconnectVote (← Reader.word8) (← Reader.word32)
  | .disconnectFrame => do return disconnectFrame (← Reader.word32)
  | .disconnectScreenOff => do return disconnectScreenOff (← Reader.word32)

end Body

namespace Command

def readAs (kind : Kind) : Reader Command := do
  let header ← Header.read kind
  let body ← Body.read kind
  return ⟨header, body⟩

def peekKind : Reader Kind := do
  let start ← get
  let byte ← Reader.byteField .kind
  match Kind.ofByte? byte with
  | none => throw (.violation (start.position + 1) (.unknownKind byte))
  | some kind => do
      set start
      return kind

/-- Read a command of the kind that its kind byte names. -/
def read : Reader Command := do
  readAs (← peekKind)

/-- The command at the front of the bytes and the length of its packet. -/
def decode (bytes : List UInt8) : Except Fault (Command × Nat) :=
  match read (Cursor.start bytes) with
  | .ok command cursor => .ok (command, cursor.position)
  | .error fault _ => .error fault

def decodeAs (kind : Kind) (bytes : List UInt8) : Except Fault Command :=
  match readAs kind (Cursor.start bytes) with
  | .ok command _ => .ok command
  | .error fault _ => .error fault

end Command

end MatchTape.Packet
