import MatchTape.Bytes.Binary32
import MatchTape.Bytes.Text
import MatchTape.Bytes.Word
import MatchTape.CommandLine.Arguments
import MatchTape.CommandLine.Program
import MatchTape.Digest
import MatchTape.Exhibition
import MatchTape.Failure
import MatchTape.Files.Path
import MatchTape.Files.Tree
import MatchTape.Files.Writing
import MatchTape.Library.Expansion
import MatchTape.Library.Pattern
import MatchTape.Main
import MatchTape.Packet.Assembly
import MatchTape.Packet.Command
import MatchTape.Packet.Decoding
import MatchTape.Packet.Encoding
import MatchTape.Packet.Fault
import MatchTape.Packet.Header
import MatchTape.Packet.Kind
import MatchTape.Packet.Message
import MatchTape.Packet.Reader
import MatchTape.Packet.Tag
import MatchTape.Playback.Report
import MatchTape.Playback.Resumption
import MatchTape.Playback.Session
import MatchTape.Proofs.Attempts
import MatchTape.Proofs.Bytes
import MatchTape.Proofs.CommandLine.Arguments
import MatchTape.Proofs.CommandLine.Workers
import MatchTape.Proofs.Digest
import MatchTape.Proofs.Files.Path
import MatchTape.Proofs.Files.Tree
import MatchTape.Proofs.Library.Expansion
import MatchTape.Proofs.Library.Listing
import MatchTape.Proofs.Library.Pattern
import MatchTape.Proofs.Packet.Arrivals
import MatchTape.Proofs.Packet.Assembly
import MatchTape.Proofs.Packet.Chat
import MatchTape.Proofs.Packet.Delimited
import MatchTape.Proofs.Packet.Encodable
import MatchTape.Proofs.Packet.Lengths
import MatchTape.Proofs.Packet.Message
import MatchTape.Proofs.Packet.Orders
import MatchTape.Proofs.Packet.Parts
import MatchTape.Proofs.Packet.Places
import MatchTape.Proofs.Packet.Reads
import MatchTape.Proofs.Packet.Refusals
import MatchTape.Proofs.Packet.Respelling
import MatchTape.Proofs.Packet.RoundTrip
import MatchTape.Proofs.Packet.Runs
import MatchTape.Proofs.Packet.Spelling
import MatchTape.Proofs.Packet.Splitting
import MatchTape.Proofs.Packet.Steady
import MatchTape.Proofs.Packet.Strictness
import MatchTape.Proofs.Playback.Accumulator
import MatchTape.Proofs.Playback.Calls
import MatchTape.Proofs.Playback.Checking
import MatchTape.Proofs.Playback.Ending
import MatchTape.Proofs.Playback.Interruption
import MatchTape.Proofs.Playback.Lockstep
import MatchTape.Proofs.Playback.Recorded
import MatchTape.Proofs.Playback.Reference
import MatchTape.Proofs.Playback.Resumption
import MatchTape.Proofs.Playback.Seating
import MatchTape.Proofs.Playback.Stages
import MatchTape.Proofs.Record.Checkpoint
import MatchTape.Proofs.Record.Entry
import MatchTape.Proofs.Record.MatchSheet
import MatchTape.Proofs.Record.RoundTrip
import MatchTape.Proofs.Record.Sizes
import MatchTape.Proofs.Screening.Apart
import MatchTape.Proofs.Screening.Errors
import MatchTape.Proofs.Screening.Reports
import MatchTape.Proofs.Screening.Rounds
import MatchTape.Proofs.Screening.Workers
import MatchTape.Proofs.Tape.Cursor
import MatchTape.Proofs.Tape.Damage
import MatchTape.Proofs.Tape.Draft
import MatchTape.Proofs.Tape.Offers
import MatchTape.Proofs.Tape.Operations
import MatchTape.Proofs.Tape.Packets
import MatchTape.Proofs.Tape.Packing
import MatchTape.Proofs.Tape.Reading
import MatchTape.Proofs.Tape.Recording
import MatchTape.Proofs.Tape.Unrecorded
import MatchTape.Proofs.World.Arena
import MatchTape.Proofs.World.Arrival
import MatchTape.Proofs.World.Checksum
import MatchTape.Proofs.World.Ids
import MatchTape.Proofs.World.Loading
import MatchTape.Proofs.World.Players
import MatchTape.Proofs.World.Restoring
import MatchTape.Proofs.World.SavedState
import MatchTape.Proofs.World.Seating
import MatchTape.Proofs.World.Walkers
import MatchTape.Record.Checkpoint
import MatchTape.Record.Entry
import MatchTape.Record.MatchSheet
import MatchTape.Screening.Continuation
import MatchTape.Screening.Options
import MatchTape.Screening.Pool
import MatchTape.Screening.Sequence
import MatchTape.Tape.Basic
import MatchTape.Tape.Batch
import MatchTape.Tape.Draft
import MatchTape.Tape.Recording
import MatchTape.World.Arena
import MatchTape.World.SavedState
import MatchTape.World.Setup
import MatchTape.World.Walker
