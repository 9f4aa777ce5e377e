import MatchTape.Proofs.Packet.Reads

/-!
# Messages survive the wire

The runs of a message say the types of its arguments, one after the other.  From
the runs that are sent a reader learns how many arguments of which types follow,
so it gives back the message as far as its runs cover it, and all of it when 255
runs are enough.
-/

namespace MatchTape.Packet

/-! ## What runs stand for -/

namespace Run

def types (run : Run) : List ArgumentType :=
  List.replicate run.count run.type

theorem gatherFrom_types (run : Run) (types : List ArgumentType) :
    (gatherFrom run types).flatMap Run.types = run.types ++ types := by
  induction types generalizing run with
  | nil => simp [gatherFrom]
  | cons type types ih =>
      rw [gatherFrom]
      split
      · next grows =>
          rw [ih, Run.types, List.replicate_succ', grows.1, List.append_assoc,
            List.singleton_append, Run.types, grows.1]
      · rw [List.flatMap_cons, ih]
        rfl

/-- Gathering loses nothing: the runs stand for the types they were gathered from. -/
theorem gather_types (types : List ArgumentType) : (gather types).flatMap Run.types = types := by
  cases types with
  | nil => rfl
  | cons type types => exact gatherFrom_types ⟨type, 1⟩ types

theorem gatherFrom_count_le {run : Run} (small : run.count ≤ most) (types : List ArgumentType) :
    ∀ found ∈ gatherFrom run types, found.count ≤ most := by
  induction types generalizing run with
  | nil => simpa [gatherFrom] using small
  | cons type types ih =>
      intro found member
      rw [gatherFrom] at member
      split at member
      · next grows => exact ih (Nat.succ_le_of_lt grows.2) found member
      · rcases List.mem_cons.mp member with rfl | later
        · exact small
        · exact ih (by simp [most]) found later

theorem gather_count_le (types : List ArgumentType) :
    ∀ found ∈ gather types, found.count ≤ most := by
  cases types with
  | nil => simp [gather]
  | cons type types => exact gatherFrom_count_le (by simp [most]) types

theorem gatherFrom_count_pos {run : Run} (held : 0 < run.count) (types : List ArgumentType) :
    ∀ found ∈ gatherFrom run types, 0 < found.count := by
  induction types generalizing run with
  | nil => simpa [gatherFrom] using held
  | cons type types ih =>
      intro found member
      rw [gatherFrom] at member
      split at member
      · exact ih (Nat.succ_pos _) found member
      · rcases List.mem_cons.mp member with rfl | later
        · exact held
        · exact ih Nat.one_pos found later

theorem gather_count_pos (types : List ArgumentType) : ∀ found ∈ gather types, 0 < found.count := by
  cases types with
  | nil => simp [gather]
  | cons type types => exact gatherFrom_count_pos Nat.one_pos types

theorem length_le_total {runs : List Run} (filled : ∀ run ∈ runs, 0 < run.count) :
    runs.length ≤ total (runs.map Run.count) := by
  induction runs with
  | nil => exact Nat.le_refl 0
  | cons run runs ih =>
      have others := ih fun other member => filled other (List.mem_cons_of_mem _ member)
      have one := filled run List.mem_cons_self
      rw [List.length_cons, List.map_cons, total]
      omega

theorem total_counts (runs : List Run) :
    total (runs.map Run.count) = (runs.flatMap Run.types).length := by
  induction runs with
  | nil => rfl
  | cons run runs ih =>
      rw [List.map_cons, total, ih, List.flatMap_cons, List.length_append, types,
        List.length_replicate]

end Run

/-! ## Reading declarations and arguments -/

namespace Argument

theorem read_bytes (argument : Argument) : (read argument.type).Reads argument.bytes argument := by
  cases argument with
  | integer value => exact (Reader.Reads.signed32 value).map integer
  | real value => exact (Reader.Reads.real value).map real
  | boolean value =>
      have flag := (Reader.Reads.word8 (if value then 1 else 0)).map fun byte => boolean (byte != 0)
      cases value <;> exact flag
  | objectId id => exact (Reader.Reads.word32 id).map objectId
  | drawableId id => exact (Reader.Reads.word32 id).map drawableId
  | teamId id => exact (Reader.Reads.word32 id).map teamId
  | location x y z =>
      rw [bytes, List.append_assoc]
      exact (Reader.Reads.real x).bind
        ((Reader.Reads.real y).bind ((Reader.Reads.real z).map (location x y)))
  | pixel x y => exact (Reader.Reads.signed32 x).bind ((Reader.Reads.signed32 y).map (pixel x))
  | pixelRegion lowX lowY highX highY =>
      rw [bytes, List.append_assoc, List.append_assoc]
      exact (Reader.Reads.signed32 lowX).bind ((Reader.Reads.signed32 lowY).bind
        ((Reader.Reads.signed32 highX).bind
          ((Reader.Reads.signed32 highY).map (pixelRegion lowX lowY highX))))
  | timestamp id => exact (Reader.Reads.word32 id).map timestamp
  | wideChar unit => exact (Reader.Reads.word16 unit).map wideChar

theorem readMany_bytes {type : ArgumentType} {count : Nat} {arguments : List Argument}
    (typed : arguments.map Argument.type = List.replicate count type) :
    (readMany type count).Reads (arguments.flatMap bytes) arguments := by
  induction count generalizing arguments with
  | zero =>
      have empty : arguments = [] := by simpa using typed
      subst empty
      exact Reader.Reads.pure []
  | succ count ih =>
      obtain ⟨argument, others, rfl, sameType, othersTyped⟩ := List.map_eq_cons_iff.mp typed
      have first : (read type).Reads argument.bytes argument := sameType ▸ argument.read_bytes
      exact first.bind ((ih othersTyped).map (argument :: ·))

theorem length_of_types {type : ArgumentType} {count : Nat} {arguments : List Argument}
    (typed : arguments.map Argument.type = List.replicate count type) :
    (arguments.flatMap bytes).length = type.width * count := by
  induction count generalizing arguments with
  | zero =>
      rw [List.map_eq_nil_iff.mp typed]
      rfl
  | succ count ih =>
      obtain ⟨argument, others, rfl, sameType, othersTyped⟩ := List.map_eq_cons_iff.mp typed
      rw [List.flatMap_cons, List.length_append, length_bytes, sameType, ih othersTyped,
        Nat.mul_succ, Nat.add_comm]

end Argument

namespace Run

theorem readArguments_bytes {runs : List Run} {arguments : List Argument}
    (declared : arguments.map Argument.type = runs.flatMap Run.types) :
    (readArguments runs).Reads (arguments.flatMap Argument.bytes) arguments := by
  induction runs generalizing arguments with
  | nil =>
      have empty : arguments = [] := by simpa using declared
      subst empty
      exact Reader.Reads.pure []
  | cons run runs ih =>
      rw [List.flatMap_cons] at declared
      obtain ⟨covered, others, rfl, typed, othersTyped⟩ := List.map_eq_append_iff.mp declared
      rw [List.flatMap_append]
      exact (Argument.readMany_bytes typed).bind ((ih othersTyped).map (covered ++ ·))

/-- The bytes of arguments are as many as their runs declare. -/
theorem length_arguments {runs : List Run} {arguments : List Argument}
    (declared : arguments.map Argument.type = runs.flatMap Run.types) :
    (arguments.flatMap Argument.bytes).length = total (runs.map Run.width) := by
  induction runs generalizing arguments with
  | nil =>
      rw [List.map_eq_nil_iff.mp declared]
      rfl
  | cons run runs ih =>
      rw [List.flatMap_cons] at declared
      obtain ⟨covered, others, rfl, typed, othersTyped⟩ := List.map_eq_append_iff.mp declared
      rw [List.flatMap_append, List.length_append, Argument.length_of_types typed,
        ih othersTyped]
      rfl

theorem readMany_bytes {runs : List Run} (small : ∀ run ∈ runs, run.count ≤ most) :
    (readMany runs.length).Reads (runs.flatMap Run.bytes) runs := by
  induction runs with
  | nil => exact Reader.Reads.pure []
  | cons run runs ih =>
      have count : (UInt8.ofNat run.count).toNat = run.count := by
        have bound := small run List.mem_cons_self
        rw [UInt8.toNat_ofNat']
        simp only [most] at bound
        omega
      have others := ih fun other member => small other (List.mem_cons_of_mem _ member)
      apply Reader.Reads.position_bind
      intro position
      refine (Reader.Reads.word8 run.type.code).bind
        ((Reader.Reads.word8 (UInt8.ofNat run.count)).bind ?_)
      rw [ArgumentType.ofCode?_code, count]
      exact others.map (run :: ·)

end Run

namespace Message

/-! ## Whole messages -/

theorem length_sentRuns_le (message : Message) : message.sentRuns.length ≤ Run.most :=
  List.length_take_le _ _

/-- The runs that are sent stand for the types of the arguments that are sent. -/
theorem sentArguments_types (message : Message) :
    message.sentArguments.map Argument.type = message.sentRuns.flatMap Run.types := by
  have all := Run.gather_types (message.arguments.map Argument.type)
  have split := List.take_append_drop Run.most message.runs
  rw [sentArguments, Run.total_counts, List.map_take, ← all]
  change List.take _ (message.runs.flatMap Run.types) = _
  rw [← split, List.flatMap_append]
  exact List.take_left

/-- A message that 255 runs cover is sent as a whole. -/
theorem sent_of_isEncodable {message : Message} (encodable : message.isEncodable = true) :
    message.sent = message := by
  have few : message.runs.length ≤ Run.most := by simpa [isEncodable] using encodable
  have types := Run.gather_types (message.arguments.map Argument.type)
  have kept : message.sentArguments = message.arguments := by
    rw [sentArguments, sentRuns, List.take_of_length_le few, Run.total_counts, runs, types,
      List.length_map, List.take_length]
  rw [sent, kept]

/-- A message that is cut keeps an argument for each run that is sent. -/
theorem most_le_length_sentArguments {message : Message} (cut : message.isEncodable = false) :
    Run.most ≤ message.sentArguments.length := by
  have more : Run.most < message.runs.length := by simpa [isEncodable] using cut
  have full : message.sentRuns.length = Run.most :=
    List.length_take_of_le (Nat.le_of_lt more)
  have filled : ∀ run ∈ message.sentRuns, 0 < run.count := fun run member =>
    Run.gather_count_pos _ run (List.mem_of_mem_take member)
  have covered : message.sentArguments.length = total (message.sentRuns.map Run.count) := by
    rw [Run.total_counts, ← sentArguments_types, List.length_map]
  rw [covered, ← full]
  exact Run.length_le_total filled

theorem read_bytes (message : Message) : read.Reads message.bytes message.sent := by
  have runCount : (UInt8.ofNat message.sentRuns.length).toNat = message.sentRuns.length := by
    have bound := message.length_sentRuns_le
    rw [UInt8.toNat_ofNat']
    simp only [Run.most] at bound
    omega
  have small : ∀ run ∈ message.sentRuns, run.count ≤ Run.most := fun run member =>
    Run.gather_count_le _ run (List.mem_of_mem_take member)
  have types := message.sentArguments_types
  have enough := (Run.length_arguments types).ge
  rw [bytes, List.append_assoc]
  refine (Reader.Reads.word32 message.code).bind
    ((Reader.Reads.word8 (UInt8.ofNat message.sentRuns.length)).bind ?_)
  rw [runCount]
  exact (Run.readMany_bytes small).bind (Reader.Reads.require_bind enough
    ((Run.readArguments_bytes types).map (Message.mk message.code)))

end Message

end MatchTape.Packet
