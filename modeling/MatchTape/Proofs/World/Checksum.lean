import Mathlib.Data.List.Sort
import MatchTape.Proofs.Digest
import MatchTape.Proofs.Packet.Reads
import MatchTape.Proofs.World.Walkers

/-!
# Checksums that tell arenas apart

The fingerprint of an arena is made of what checksums see of each walker, in the order of the
ids.  Two arenas in which the same ids are in use, and the same walkers have a target, have
fingerprints of one length; if these differ in a single byte, so do the checksums.
-/

namespace MatchTape.World

open Packet

/-! ## Single walkers -/

/-- What checksums see of a walker: its owner, and the canonical bits of the coordinates of its
position and of its target, if it has one. -/
structure Sight where
  owner : UInt8
  coordinates : List UInt32
  deriving DecidableEq, Repr

def Walker.sight (walker : Walker) : Sight where
  owner := walker.owner
  coordinates := (walker.position :: walker.target.toList).flatMap fun point =>
    [point.x.canonicalBits, point.y.canonicalBits]

theorem Walker.length_coordinates (walker : Walker) :
    walker.sight.coordinates.length = if walker.target.isSome then 4 else 2 := by
  obtain ⟨owner, position, target⟩ := walker
  cases target <;> rfl

namespace Sight

variable {sight other : Sight}

def bytes (id : UInt32) (sight : Sight) : List UInt8 :=
  Encoding.word32 id ++ sight.owner :: sight.coordinates.flatMap Encoding.word32

theorem length_bytes (id : UInt32) (sight : Sight) :
    (sight.bytes id).length = 5 + 4 * sight.coordinates.length := by
  have coordinates : (sight.coordinates.flatMap Encoding.word32).length =
      sight.coordinates.length * 4 := by
    simp only [List.length_flatMap, Encoding.length_word32, List.map_const',
      List.sum_replicate_nat]
  rw [bytes, List.length_append, List.length_cons, coordinates, Encoding.length_word32]
  omega

inductive Altered : Sight → Sight → Prop where
  | owner {one other : UInt8} (differs : one ≠ other) (coordinates : List UInt32) :
      Altered ⟨one, coordinates⟩ ⟨other, coordinates⟩
  | coordinate (owner : UInt8) (front behind : List UInt32) {one other : UInt32}
      (differ : DifferOnce (Encoding.word32 one) (Encoding.word32 other)) :
      Altered ⟨owner, front ++ one :: behind⟩ ⟨owner, front ++ other :: behind⟩

theorem Altered.length_eq (altered : Altered sight other) :
    sight.coordinates.length = other.coordinates.length := by
  cases altered with
  | owner => rfl
  | coordinate owner front behind differ =>
      rw [List.length_append, List.length_append, List.length_cons, List.length_cons]

theorem Altered.differOnce (altered : Altered sight other) (id : UInt32) :
    DifferOnce (sight.bytes id) (other.bytes id) := by
  cases altered with
  | owner differs coordinates => exact .of_ne differs _ _
  | @coordinate owner front behind one other differ =>
      have length : (Encoding.word32 one).length = (Encoding.word32 other).length := by
        rw [Encoding.length_word32, Encoding.length_word32]
      have whole := differ.append length
        (Encoding.word32 id ++ owner :: front.flatMap Encoding.word32)
        (behind.flatMap Encoding.word32)
      simpa only [bytes, List.flatMap_append, List.flatMap_cons, List.append_assoc,
        List.cons_append] using whole

end Sight

namespace Arena

variable {arena other : Arena} {id : UInt32}

/-! ## Fingerprints id by id -/

theorem walkerBytes_eq (id : UInt32) (walker : Walker) :
    walkerBytes id walker = walker.sight.bytes id := by
  obtain ⟨owner, position, target⟩ := walker
  cases target <;> simp [walkerBytes, pointBytes, canonicalBytes, Sight.bytes, Walker.sight]

def sight? (arena : Arena) (id : UInt32) : Option Sight :=
  (arena.walker? id).map Walker.sight

def partFor (arena : Arena) (id : UInt32) : List UInt8 :=
  (arena.sight? id).elim [] (Sight.bytes id)

theorem fingerprint_eq (arena : Arena) :
    arena.fingerprint = Encoding.word32 arena.frame ++ Encoding.word32 arena.random ++
      arena.walkers.keys.flatMap arena.partFor := by
  rw [fingerprint, ← Std.ExtTreeMap.map_fst_toList_eq_keys, List.flatMap_map]
  congr 1
  refine List.flatMap_congr ?_
  rintro ⟨id, walker⟩ member
  have found : arena.walker? id = some walker :=
    Std.ExtTreeMap.mem_toList_iff_getElem?_eq_some.mp member
  rw [partFor, sight?, found]
  exact walkerBytes_eq id walker

theorem keys_eq (ids : ∀ id, id ∈ arena.walkers ↔ id ∈ other.walkers) :
    arena.walkers.keys = other.walkers.keys := by
  have sorted (arena : Arena) : arena.walkers.keys.Pairwise (· < ·) :=
    (Std.ExtTreeMap.ordered_keys (t := arena.walkers)).imp Std.compare_eq_lt.mp
  refine (sorted arena).eq_of_mem_iff (sorted other) fun id => ?_
  rw [Std.ExtTreeMap.mem_keys, Std.ExtTreeMap.mem_keys, ids]

theorem mem_walkers_iff_sight? : id ∈ arena.walkers ↔ (arena.sight? id).isSome = true := by
  rw [sight?, Option.isSome_map, Std.ExtTreeMap.mem_iff_isSome_getElem?]
  rfl

def hasTarget (arena : Arena) (id : UInt32) : Bool :=
  (arena.walker? id).any (·.target.isSome)

theorem hasTarget_eq (arena : Arena) (id : UInt32) :
    arena.hasTarget id = (arena.sight? id).any (·.coordinates.length == 4) := by
  rw [hasTarget, sight?]
  cases arena.walker? id with
  | none => rfl
  | some walker =>
      rw [Option.map_some, Option.any_some, Option.any_some, Walker.length_coordinates]
      cases walker.target <;> rfl

/-- The same ids are in use in both arenas, and the same walkers have a target. -/
structure SameOutline (arena other : Arena) : Prop where
  ids : ∀ id, id ∈ arena.walkers ↔ id ∈ other.walkers
  targets : ∀ id, arena.hasTarget id = other.hasTarget id

theorem SameOutline.length_partFor (same : arena.SameOutline other) (id : UInt32) :
    (arena.partFor id).length = (other.partFor id).length := by
  have known := same.ids id
  have targets := same.targets id
  rw [mem_walkers_iff, mem_walkers_iff] at known
  rw [hasTarget, hasTarget] at targets
  rw [partFor, partFor, sight?, sight?]
  cases found : arena.walker? id with
  | none =>
      cases foundOther : other.walker? id with
      | none => rfl
      | some walkerOther =>
          obtain ⟨walker, stands⟩ := known.mpr ⟨walkerOther, foundOther⟩
          cases found.symm.trans stands
  | some walker =>
      obtain ⟨walkerOther, foundOther⟩ := known.mp ⟨walker, found⟩
      rw [found, foundOther, Option.any_some, Option.any_some] at targets
      rw [foundOther, Option.map_some, Option.map_some, Option.elim_some, Option.elim_some,
        Sight.length_bytes, Sight.length_bytes, Walker.length_coordinates,
        Walker.length_coordinates, targets]

theorem SameOutline.length_fingerprint (same : arena.SameOutline other) :
    arena.fingerprint.length = other.fingerprint.length := by
  simp only [fingerprint_eq, List.length_append, List.length_flatMap, Encoding.length_word32,
    keys_eq same.ids, same.length_partFor]

/-! ## Single differences -/

/-- Checksums see one thing that differs between two arenas, and it is about the walker with an
id: its owner, or a byte of one of its coordinates. -/
structure AlteredAt (id : UInt32) (arena other : Arena) : Prop where
  frame : arena.frame = other.frame
  random : arena.random = other.random
  others : ∀ key, key ≠ id → arena.sight? key = other.sight? key
  altered : ∃ sight sightOther, arena.sight? id = some sight ∧
    other.sight? id = some sightOther ∧ sight.Altered sightOther

namespace AlteredAt

theorem sameOutline (altered : AlteredAt id arena other) : arena.SameOutline other := by
  obtain ⟨sight, sightOther, here, there, differ⟩ := altered.altered
  constructor
  · intro key
    rw [mem_walkers_iff_sight?, mem_walkers_iff_sight?]
    by_cases same : key = id
    · rw [same, here, there]
      exact Iff.rfl
    · rw [altered.others key same]
  · intro key
    rw [hasTarget_eq, hasTarget_eq]
    by_cases same : key = id
    · rw [same, here, there, Option.any_some, Option.any_some, differ.length_eq]
    · rw [altered.others key same]

/-- The fingerprints are equal but for the part of the one walker. -/
theorem differOnce (altered : AlteredAt id arena other) :
    DifferOnce arena.fingerprint other.fingerprint := by
  obtain ⟨sight, sightOther, here, there, differ⟩ := altered.altered
  have outline := altered.sameOutline
  have part : DifferOnce (arena.partFor id) (other.partFor id) := by
    rw [partFor, here, partFor, there]
    exact differ.differOnce id
  have used : id ∈ arena.walkers.keys := by
    rw [Std.ExtTreeMap.mem_keys, mem_walkers_iff_sight?, here]
    rfl
  obtain ⟨front, behind, keys⟩ := List.append_of_mem used
  have once := Std.ExtTreeMap.nodup_keys (t := arena.walkers)
  rw [keys, List.nodup_middle, List.nodup_cons] at once
  have rest : ∀ key ∈ front ++ behind, arena.partFor key = other.partFor key := by
    intro key member
    have apart : key ≠ id := fun same => once.1 (same ▸ member)
    rw [partFor, partFor, altered.others key apart]
  have fronts : front.flatMap arena.partFor = front.flatMap other.partFor :=
    List.flatMap_congr fun key member => rest key (List.mem_append_left _ member)
  have behinds : behind.flatMap arena.partFor = behind.flatMap other.partFor :=
    List.flatMap_congr fun key member => rest key (List.mem_append_right _ member)
  have whole := part.append (outline.length_partFor id)
    (Encoding.word32 arena.frame ++ Encoding.word32 arena.random ++ front.flatMap arena.partFor)
    (behind.flatMap arena.partFor)
  rw [fingerprint_eq, fingerprint_eq, ← keys_eq outline.ids, keys, List.flatMap_append,
    List.flatMap_append, List.flatMap_cons, List.flatMap_cons, ← fronts, ← behinds,
    ← altered.frame, ← altered.random]
  simpa only [List.append_assoc] using whole

end AlteredAt

/-- Arenas in which the same ids are in use and the same walkers have a target have different
checksums if exactly one byte of what these are taken of differs.  So they do if one walker
belongs to another player, or has another coordinate whose canonical bits differ in one byte, and
all else is seen alike. -/
theorem checksum_ne_of_single_byte (arena other : Arena) :
    (arena.SameOutline other → DifferOnce arena.fingerprint other.fingerprint →
      arena.checksum ≠ other.checksum) ∧
    ∀ id, AlteredAt id arena other → arena.checksum ≠ other.checksum := by
  have single : arena.SameOutline other → DifferOnce arena.fingerprint other.fingerprint →
      arena.checksum ≠ other.checksum := fun same differ =>
    Digest.Fold.ofBytes_ne differ same.length_fingerprint
  exact ⟨single, fun id altered => single altered.sameOutline altered.differOnce⟩

def underWay (owner : UInt8) (goal : UInt32) : Arena where
  walkers := (Std.ExtTreeMap.insert ∅ 1
    { owner, position := ⟨.zero, .zero⟩, target := some ⟨⟨goal⟩, .zero⟩ }).insert 2
      { owner := 2, position := ⟨.zero, .zero⟩ }

/-- The first walker goes to 1.0 or to 4.0, which differ in the highest byte, or belongs to
another player. -/
theorem checksum_ne_of_single_byte_underWay :
    let arena := underWay 1 0x3f800000
    let farther := underWay 1 0x40800000
    let taken := underWay 3 0x3f800000
    (arena.SameOutline farther ∧ DifferOnce arena.fingerprint farther.fingerprint ∧
      arena.checksum ≠ farther.checksum) ∧
    AlteredAt 1 arena taken ∧ arena.checksum ≠ taken.checksum := by
  intro arena farther taken
  have others (owner owner' : UInt8) (goal goal' key : UInt32) (apart : key ≠ 1) :
      (underWay owner goal).sight? key = (underWay owner' goal').sight? key := by
    simp only [sight?, walker?, underWay, Std.ExtTreeMap.getElem?_insert,
      Std.LawfulEqCmp.compare_eq_iff_eq, apart.symm, if_false]
  have goes : AlteredAt 1 arena farther := by
    refine ⟨rfl, rfl, others 1 1 _ _, _, _, rfl, rfl, ?_⟩
    exact .coordinate 1 [0, 0] [0] (.of_ne (by decide) [0, 0, 0x80] [])
  have belongs : AlteredAt 1 arena taken :=
    ⟨rfl, rfl, others 1 3 _ _, _, _, rfl, rfl, .owner (by decide) _⟩
  refine ⟨⟨goes.sameOutline, goes.differOnce, ?_⟩, belongs, ?_⟩
  · exact (checksum_ne_of_single_byte arena farther).1 goes.sameOutline goes.differOnce
  · exact (checksum_ne_of_single_byte arena taken).2 1 belongs

end Arena

end MatchTape.World
