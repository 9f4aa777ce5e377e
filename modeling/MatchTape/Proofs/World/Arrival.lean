import MatchTape.Proofs.Packet.Respelling
import MatchTape.Proofs.World.Arena

/-!
# Commands that have crossed the wire

An arena carries out commands of three kinds.  A packet is decoded as a command of the kind
that was encoded, and what the encoder leaves out of these three is nothing that an arena
reads.  So an arena that is given the decoded commands of a frame comes to the same state as
one that is given the commands themselves.
-/

namespace MatchTape.Packet.Command

variable {command arrival : Command} {used : Nat}

theorem kind_of_decode (decoded : decode command.bytes = .ok (arrival, used)) :
    arrival.kind = command.kind := by
  obtain ⟨after, found, -⟩ := decode_eq_ok_iff.mp decoded
  have start := read_bytes_append command [] 0
  rw [List.append_nil] at start
  rw [Cursor.start, start] at found
  obtain ⟨_, _, _, _, same, _⟩ := spells_header command.kind _ _ _ _ found
  exact same

theorem eq_sent_of_decode (fits : command.body.Fits) (inRange : command.body.InRange)
    (decoded : decode command.bytes = .ok (arrival, used)) : arrival = command.sent := by
  have whole := decode_of_reads (read_bytes fits inRange) []
  rw [List.append_nil, decoded] at whole
  cases whole
  rfl

end MatchTape.Packet.Command

namespace MatchTape.World.Arena

open Packet

/-- The kinds of commands that an arena carries out. -/
def obeyed : List Kind :=
  [.game, .playerLeave, .destroyPlayer]

variable {command arrival : Command}

theorem execute_eq_self (idle : command.kind ∉ obeyed) (arena : Arena) :
    arena.execute command = arena := by
  obtain ⟨header, body⟩ := command
  cases body with
  | game | playerLeave | destroyPlayer =>
      simp [Command.kind, Body.kind, obeyed] at idle
  | _ => rfl

/-- None of these commands has a part that a reader refuses or that is too long for it. -/
theorem readable_of_obeyed (carried : command.kind ∈ obeyed) :
    command.body.Fits ∧ command.body.InRange := by
  obtain ⟨header, body⟩ := command
  cases body with
  | wrapper | file => simp [Command.kind, Body.kind, obeyed] at carried
  | _ => exact ⟨trivial, trivial⟩

/-- A decoded command does what the one that was encoded would have done. -/
theorem execute_of_decode {used : Nat}
    (decoded : Command.decode command.bytes = .ok (arrival, used)) (arena : Arena) :
    arena.execute arrival = arena.execute command := by
  by_cases carried : command.kind ∈ obeyed
  · obtain ⟨fits, inRange⟩ := readable_of_obeyed carried
    rw [Command.eq_sent_of_decode fits inRange decoded, execute_sent]
  · have idle : arrival.kind ∉ obeyed := Command.kind_of_decode decoded ▸ carried
    rw [execute_eq_self carried, execute_eq_self idle]

/-- Given the commands of a frame or those that their packets are decoded to, an arena comes
to the same state, whatever the packets have left out and whatever the arena holds before. -/
theorem playFrame_of_decode {commands arrivals : List Command}
    (decoded : List.Forall₂
      (fun command arrival => ∃ used, Command.decode command.bytes = .ok (arrival, used))
      commands arrivals) (arena : Arena) :
    arena.playFrame arrivals = arena.playFrame commands :=
  playFrame_congr (decoded.imp fun _ _ ⟨_, arrives⟩ => execute_of_decode arrives) arena

/-- A file name loses what stands behind its NUL, a header the frame that files do not send, and
a message the last of 256 arguments of alternating types. -/
theorem playFrame_of_decode_cut :
    let named : Command := ⟨{ player := 1, frame := 5 }, .file "a\x00b" [7]⟩
    let wide : Command := ⟨{ player := 1, frame := 5 },
      .game ⟨createCode, (List.replicate 128 [.integer 3, .boolean true]).flatten⟩⟩
    Command.decode named.bytes = .ok (⟨{ player := 1 }, .file "a" [7]⟩, 17) ∧
      Command.decode wide.bytes = .ok (wide.sent, wide.bytes.length) ∧ wide.sent ≠ wide ∧
      (begin {}).playFrame [⟨{ player := 1 }, .file "a" [7]⟩, wide.sent] =
        (begin {}).playFrame [named, wide] := by
  intro named wide
  have first : Command.decode named.bytes = .ok (⟨{ player := 1 }, .file "a" [7]⟩, 17) := by
    decide +kernel
  have second : Command.decode wide.bytes = .ok (wide.sent, wide.bytes.length) := by
    have reads : Command.read.Reads wide.bytes wide.sent := Command.read_bytes trivial trivial
    have whole := Command.decode_of_reads reads []
    rwa [List.append_nil] at whole
  have shorter : wide.sent ≠ wide := by decide +kernel
  exact ⟨first, second, shorter,
    playFrame_of_decode (.cons ⟨_, first⟩ (.cons ⟨_, second⟩ .nil)) _⟩

end MatchTape.World.Arena
