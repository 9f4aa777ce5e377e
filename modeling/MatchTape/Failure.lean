import MatchTape.Files.Tree
import MatchTape.World.Setup

/-!
# Why a recording cannot be played, made or resumed

Every failure concerns one recording.  `Failure.message` is the only place that
words it.
-/

namespace MatchTape

open Packet (Kind)

/-- How the bytes of a recording break its rules. -/
inductive Corruption where
  | sheetLength (length : Nat)
  | outsidePackets (start stop : Nat)
  | notBatch (found : Kind)
  | notLater (frame : UInt32) (last : Option UInt32)
  | shortBatch (frame : UInt32) (declared found : Nat)
  | strayCommand (kind : Kind) (scheduled frame : UInt32)
  | missedBatch (found executing : UInt32)
  deriving DecidableEq, Repr

/-- Why commands cannot be recorded. -/
inductive Unrecordable where
  | notLater (frame : UInt32) (last : Option UInt32)
  | tooMany (count : Nat) (frame : UInt32)
  | strayCommand (kind : Kind) (scheduled frame : UInt32)
  | tooManyRuns (code : UInt32) (arguments : Nat)
  | frameInfo
  deriving DecidableEq, Repr

def frameText : Option UInt32 → String
  | some frame => s!"Some({frame})"
  | none => "None"

def Corruption.message : Corruption → String
  | sheetLength length => s!"header length {length} runs past end of file"
  | outsidePackets start stop => s!"seek outside packet section {start}..{stop}"
  | notBatch found => s!"expected FrameInfo, found {found.name}"
  | notLater frame last => s!"frame {frame} does not follow frame {frameText last}"
  | shortBatch frame declared found =>
      s!"frame {frame} declares {declared} commands, stream ends after {found}"
  | strayCommand kind scheduled frame =>
      s!"{kind.name} scheduled for frame {scheduled} inside batch for frame {frame}"
  | missedBatch found executing =>
      s!"batch for frame {found} found while executing frame {executing}"

def Unrecordable.message : Unrecordable → String
  | notLater frame last => s!"frame {frame} written after frame {frameText last}"
  | tooMany count frame => s!"{count} commands in frame {frame}"
  | strayCommand kind scheduled frame =>
      s!"{kind.name} for frame {scheduled} written into frame {frame}"
  | tooManyRuns code arguments =>
      s!"message {code} has {arguments} arguments in too many type runs to encode"
  | frameInfo => "FrameInfo is written by the recorder"

def corruptMessage (offset : Nat) (cause : Corruption) : String :=
  s!"corrupt command stream at byte {offset}: {cause.message}"

def badRecordMessage : String := "failed to decode Protobuf message"

/-- Why a checkpoint cannot be used. -/
inductive Unloadable where
  | unreadable (path : String) (fault : Files.Fault)
  | absent (reason : String)
  | badRecord
  | noRecording
  | notPlayback
  | otherRecording (name digest loadedName loadedDigest : String)
  | pastEnd (frame frameCount : UInt32)
  | badState (refusal : World.Refusal)
  | otherFrame (state checkpoint : UInt32)
  | badOffset (offset : Nat) (cause : Corruption)
  deriving DecidableEq, Repr

def Unloadable.message : Unloadable → String
  | unreadable path fault => s!"{path}: {fault.message}"
  | absent reason => reason
  | badRecord => badRecordMessage
  | noRecording => "no recording loaded"
  | notPlayback => "not saved during replay playback"
  | otherRecording name digest loadedName loadedDigest =>
      s!"saved from {name} ({digest}), loaded recording is {loadedName} ({loadedDigest})"
  | pastEnd frame frameCount => s!"frame {frame} is past the end of the recording ({frameCount})"
  | badState refusal => refusal.message
  | otherFrame state checkpoint =>
      s!"state is at frame {state}, checkpoint records frame {checkpoint}"
  | badOffset offset cause => corruptMessage offset cause

inductive Unsaved where
  | refused (reason : String)
  | unwritable (fault : Files.Fault)
  | outsideRemaining (frame : UInt32) (first : Nat) (last : UInt32)
  deriving DecidableEq, Repr

def Unsaved.message : Unsaved → String
  | refused reason => reason
  | unwritable fault => fault.message
  | outsideRemaining frame first last =>
      s!"frame {frame} is outside remaining playback {first}..={last}"

inductive Failure where
  | files (fault : Files.Fault)
  | notRecording
  | unsupportedVersion (version : UInt8)
  | badSheet
  | badPacket (offset : Nat) (fault : Packet.Fault)
  | corrupt (offset : Nat) (cause : Corruption)
  | unrecordable (cause : Unrecordable)
  | cannotOpen (name : String) (cause : Failure)
  | checkpointLoad (name : String) (cause : Unloadable)
  | checkpointSave (name : String) (cause : Unsaved)
  | cannotStart (source reason : String)
  | world (refusal : World.Refusal)
  | outOfTurn (operation stage : String)
  deriving DecidableEq, Repr

def Failure.message : Failure → String
  | files fault => s!"I/O error: {fault.message}"
  | notRecording => "not a replay file (bad magic)"
  | unsupportedVersion version => s!"unsupported replay format version {version}"
  | badSheet => s!"invalid replay header: {badRecordMessage}"
  | badPacket offset fault => s!"bad packet at byte {offset}: {fault.message}"
  | corrupt offset cause => corruptMessage offset cause
  | unrecordable cause => s!"cannot record: {cause.message}"
  | cannotOpen name cause => s!"cannot open replay {name}: {cause.message}"
  | checkpointLoad name cause => s!"cannot load checkpoint {name}: {cause.message}"
  | checkpointSave name cause => s!"cannot save checkpoint {name}: {cause.message}"
  | cannotStart source reason => s!"cannot start worker for {source}: {reason}"
  | world refusal => s!"simulation error: {refusal.message}"
  | outOfTurn operation stage => s!"{operation} is not valid in state {stage}"

end MatchTape
