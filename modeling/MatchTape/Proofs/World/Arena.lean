import Mathlib.Data.List.Forall2
import MatchTape.Proofs.Packet.Message
import MatchTape.Proofs.World.Walkers

/-!
# Frames of an arena

Between two frames no command waits and every walker bears an id that has been given
out.  Playing a frame leads from one such state to the next, and commands do the same
to an arena whether they arrive over a wire or not.
-/

namespace MatchTape.World

theorem Setup.ofSheet_of_empty {sheet : Record.MatchSheet} (empty : sheet.roster = []) :
    Setup.ofSheet sheet = .ok { host := sheet.host, map := sheet.map, seed := sheet.seed } := by
  simp only [Setup.ofSheet, empty, List.mapM_nil, pure_bind, List.mergeSort_nil]
  rfl

namespace Arena

open Packet

variable {setup : Setup} {frame : UInt32} {arena : Arena}

/-- The arena stands in a frame of a match; no command waits, and all ids in use have
been given out. -/
structure At (setup : Setup) (frame : UInt32) (arena : Arena) : Prop where
  setup : arena.setup = some setup
  frame : arena.frame = frame
  pending : arena.pending = #[]
  issued : ∀ id ∈ arena.walkers, id < arena.nextId

def playFrame (commands : List Command) (arena : Arena) : Arena :=
  (commands.foldl (fun arena command => arena.apply command) arena).advance

/-! ## Single commands -/

namespace At

/-- Whatever is asked of an arena, it stays in its frame of the match. -/
theorem deed (stands : At setup frame arena) (deed : Deed) : At setup frame (deed.on arena) := by
  have issued : (deed.on arena).Issued := (Follows.deed deed arena).issued stands.issued
  cases deed with
  | create owner position =>
      have same : (arena.create owner position).setup = arena.setup ∧
          (arena.create owner position).frame = arena.frame ∧
          (arena.create owner position).pending = arena.pending := by
        unfold create
        split <;> exact ⟨rfl, rfl, rfl⟩
      exact ⟨same.1.trans stands.setup, same.2.1.trans stands.frame,
        same.2.2.trans stands.pending, issued⟩
  | remove | order | nothing => exact ⟨stands.setup, stands.frame, stands.pending, issued⟩

theorem execute (stands : At setup frame arena) (command : Command) :
    At setup frame (arena.execute command) := by
  rw [Deed.execute_eq]
  exact stands.deed _

theorem foldl_execute (stands : At setup frame arena) (commands : List Command) :
    At setup frame (commands.foldl Arena.execute arena) := by
  induction commands generalizing arena with
  | nil => exact stands
  | cons command commands ih => exact ih (stands.execute command)

end At

/-- A message of more than two arguments means nothing. -/
theorem obey_eq_self {message : Message} (many : 2 < message.arguments.length) (player : UInt8)
    (arena : Arena) : arena.obey player message = arena := by
  obtain ⟨code, arguments⟩ := message
  match arguments with
  | [] | [_] | [_, _] => simp at many
  | first :: second :: third :: others => cases first <;> cases second <;> rfl

/-- A message that arrives means what the one that was sent would have meant: only one that has
more arguments than any message with a meaning is cut. -/
theorem obey_sent (player : UInt8) (message : Message) (arena : Arena) :
    arena.obey player message.sent = arena.obey player message := by
  cases encodable : message.isEncodable with
  | true => rw [Message.sent_of_isEncodable encodable]
  | false =>
      have kept : 2 < message.sent.arguments.length :=
        Nat.lt_of_lt_of_le (by decide) (Message.most_le_length_sentArguments encodable)
      have all : 2 < message.arguments.length :=
        Nat.lt_of_lt_of_le kept (List.length_take_le' _ _)
      rw [obey_eq_self kept, obey_eq_self all]

/-- A command that arrives does what the one that was sent would have done. -/
theorem execute_sent (command : Command) (arena : Arena) :
    arena.execute command.sent = arena.execute command := by
  obtain ⟨header, body⟩ := command
  cases body with
  | game message => exact obey_sent header.player message arena
  | _ => rfl

/-! ## Whole frames -/

theorem at_begin (setup : Setup) : At setup 0 (.begin setup) := by
  have seated : ∀ (roster : List Place) (arena : Arena), At setup 0 arena →
      At setup 0 (roster.foldl (fun arena place =>
        arena.create place.slot ⟨.ofNat (place.slot.toNat * 100), .zero⟩) arena) := by
    intro roster
    induction roster with
    | nil => exact fun arena stands => stands
    | cons place roster ih => exact fun arena stands => ih _ (stands.deed (.create _ _))
  exact seated setup.roster _
    ⟨rfl, rfl, rfl, fun id member => absurd member Std.ExtTreeMap.not_mem_empty⟩

theorem foldl_apply (commands : List Command) (arena : Arena) :
    commands.foldl (fun arena command => arena.apply command) arena =
      { arena with pending := arena.pending ++ commands } := by
  induction commands generalizing arena with
  | nil => simp only [List.foldl_nil, Array.appendList_nil]
  | cons command commands ih =>
      rw [List.foldl_cons, ih, apply]
      simp only [Array.appendList_cons]

/-- The commands of a frame are carried out behind those that wait already. -/
theorem playFrame_eq (commands : List Command) (arena : Arena) :
    arena.playFrame commands =
      let after := (arena.pending.toList ++ commands).foldl execute { arena with pending := #[] }
      { after with
        walkers := after.walkers.map fun _ walker => walker.step
        random := nextRandom after.random
        frame := after.frame + 1 } := by
  rw [playFrame, foldl_apply, advance, executePending]
  simp only [Array.toList_appendList]

theorem At.playFrame (stands : At setup frame arena) (commands : List Command) :
    At setup (frame + 1) (arena.playFrame commands) := by
  have clear : At setup frame { arena with pending := #[] } :=
    ⟨stands.setup, stands.frame, rfl, stands.issued⟩
  have after := clear.foldl_execute (arena.pending.toList ++ commands)
  rw [playFrame_eq]
  exact ⟨after.setup, congrArg (· + 1) after.frame, after.pending, fun id member =>
    after.issued id (Std.ExtTreeMap.mem_of_mem_map member)⟩

/-- A frame comes out the same for commands each of which does the same. -/
theorem playFrame_congr {commands others : List Command}
    (alike : List.Forall₂
      (fun command other => ∀ arena : Arena, arena.execute other = arena.execute command)
      commands others) (arena : Arena) :
    arena.playFrame others = arena.playFrame commands := by
  have same : ∀ arena : Arena, others.foldl execute arena = commands.foldl execute arena := by
    induction alike with
    | nil => exact fun _ => rfl
    | cons first _ ih =>
        intro arena
        rw [List.foldl_cons, List.foldl_cons, first]
        exact ih _
  simp only [playFrame_eq, List.foldl_append, same]

theorem playFrame_map_sent (commands : List Command) (arena : Arena) :
    arena.playFrame (commands.map Command.sent) = arena.playFrame commands :=
  playFrame_congr (List.forall₂_map_right_iff.mpr
    (List.forall₂_same.mpr fun command _ => execute_sent command)) arena

end Arena

end MatchTape.World
