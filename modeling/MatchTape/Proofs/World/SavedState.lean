import Mathlib.Data.List.Nodup
import Mathlib.Data.List.Perm.Subperm
import MatchTape.Proofs.Packet.Reads
import MatchTape.Proofs.World.Arena
import MatchTape.World.SavedState

/-!
# Loading what was saved

The state of an arena between two frames is read back field by field; the walkers are put
among each other again one by one.  All ids have been given out, so their number fits its
four bytes and the next id lies above them.
-/

namespace MatchTape.World.Arena

open Packet Packet.Reader

variable {setup : Setup} {frame : UInt32} {arena : Arena}

/-! ## Walkers -/

theorem readPoint_bytes (point : Point) : readPoint.Reads (savedPoint point) point :=
  (Reads.real point.x).bind ((Reads.real point.y).map (Point.mk point.x))

theorem readWalker_bytes (id : UInt32) (walker : Walker) :
    readWalker.Reads (savedWalker id walker) (id, walker) := by
  obtain ⟨owner, position, target⟩ := walker
  rw [savedWalker, List.append_assoc]
  refine (Reads.word32 id).bind ?_
  rw [← List.singleton_append, List.append_assoc]
  refine (Reads.word8 owner).bind ((readPoint_bytes position).bind ?_)
  cases target with
  | none => exact (Reads.word8 0).bind_nil (Reads.pure _)
  | some goal => exact (Reads.word8 1).bind ((readPoint_bytes goal).map _)

/-- Walkers are put among others in the order in which they were saved. -/
theorem readWalkers_bytes (list : List (UInt32 × Walker))
    (walkers : Std.ExtTreeMap UInt32 Walker) :
    (readWalkers list.length walkers).Reads
      (list.flatMap fun (id, walker) => savedWalker id walker)
      (list.foldl (fun walkers (id, walker) => walkers.insert id walker) walkers) := by
  induction list generalizing walkers with
  | nil => exact Reads.pure walkers
  | cons first list ih =>
      rw [List.flatMap_cons, List.length_cons, List.foldl_cons]
      exact (readWalker_bytes first.1 first.2).bind (ih _)

theorem foldl_insert_toList (walkers : Std.ExtTreeMap UInt32 Walker) :
    walkers.toList.foldl (fun walkers (id, walker) => walkers.insert id walker) ∅ = walkers := by
  rw [← Std.ExtTreeMap.ofList_eq_foldl]
  refine Std.ExtTreeMap.ext_getElem? fun {id} => ?_
  cases found : walkers[id]? with
  | some walker =>
      exact Std.ExtTreeMap.getElem?_ofList_of_mem Std.ReflCmp.compare_self
        Std.ExtTreeMap.distinct_keys_toList
        (Std.ExtTreeMap.mem_toList_iff_getElem?_eq_some.mpr found)
  | none =>
      refine Std.ExtTreeMap.getElem?_ofList_of_contains_eq_false ?_
      rw [Std.ExtTreeMap.map_fst_toList_eq_keys, List.contains_eq_mem, decide_eq_false_iff_not,
        Std.ExtTreeMap.mem_keys]
      intro member
      rw [Std.ExtTreeMap.mem_iff_isSome_getElem?, found] at member
      cases member

/-- As many ids as have been given out can be in use. -/
theorem At.size_le (stands : At setup frame arena) : arena.walkers.size ≤ arena.nextId.toNat := by
  have distinct : (arena.walkers.keys.map UInt32.toNat).Nodup :=
    List.Nodup.map (fun _ _ => UInt32.toNat_inj.mp) Std.ExtTreeMap.nodup_keys
  have issued : arena.walkers.keys.map UInt32.toNat ⊆ List.range arena.nextId.toNat := by
    intro number member
    obtain ⟨id, used, rfl⟩ := List.mem_map.mp member
    exact List.mem_range.mpr
      (UInt32.lt_iff_toNat_lt.mp (stands.issued id (Std.ExtTreeMap.mem_of_mem_keys used)))
  have bound := (List.subperm_of_subset distinct issued).length_le
  rwa [List.length_map, Std.ExtTreeMap.length_keys, List.length_range] at bound

/-! ## States -/

theorem readFields_bytes (stands : At setup frame arena) :
    (readFields setup).Reads
      (Encoding.word32 arena.frame ++ (Encoding.word32 arena.random ++
        (Encoding.word32 arena.nextId ++ (Encoding.word32 (UInt32.ofNat arena.walkers.size) ++
          arena.walkers.toList.flatMap fun (id, walker) => savedWalker id walker)))) arena := by
  have count : (UInt32.ofNat arena.walkers.size).toNat = arena.walkers.toList.length := by
    rw [Std.ExtTreeMap.length_toList]
    exact UInt32.toNat_ofNat_of_lt' (Nat.lt_of_le_of_lt stands.size_le arena.nextId.toNat_lt)
  have walkers := readWalkers_bytes arena.walkers.toList ∅
  rw [foldl_insert_toList, ← count] at walkers
  have whole : (⟨some setup, arena.frame, arena.random, arena.nextId, arena.walkers, #[]⟩ : Arena) =
      arena := by
    obtain ⟨found, frame, random, nextId, walkers, pending⟩ := arena
    cases stands.setup
    cases stands.pending
    rfl
  refine (Reads.word32 arena.frame).bind ((Reads.word32 arena.random).bind
    ((Reads.word32 arena.nextId).bind ((Reads.word32 _).bind ?_)))
  have fields := walkers.map fun walkers =>
    (⟨some setup, arena.frame, arena.random, arena.nextId, walkers, #[]⟩ : Arena)
  rwa [whole] at fields

theorem readState_of_reads {α : Type} {reader : Reader α} {bytes : List UInt8} {value : α}
    (reads : reader.Reads bytes value) (rest : List UInt8) (position : Nat) :
    readState reader ⟨bytes ++ rest, position⟩ =
      .ok (value, ⟨rest, position + bytes.length⟩) := by
  rw [readState, reads]

/-- The state of an arena between two frames is loaded as it was saved, unless the name that
was saved is not the whole name of the map. -/
theorem ofState_save_eq (stands : At setup frame arena) :
    ofState setup arena.save =
      if Text.beforeNul setup.map = setup.map then .ok arena
      else .error (.otherMap setup.map (Text.beforeNul setup.map)) := by
  have shape : arena.save = [stateVersion] ++ (Encoding.terminated setup.map ++
      (Encoding.word32 arena.frame ++ (Encoding.word32 arena.random ++
        (Encoding.word32 arena.nextId ++ (Encoding.word32 (UInt32.ofNat arena.walkers.size) ++
          arena.walkers.toList.flatMap fun (id, walker) => savedWalker id walker))))) := by
    rw [save, stands.setup]
    simp only [List.append_assoc, List.cons_append]
    rfl
  have name : Reader.terminated.Reads (Encoding.terminated setup.map)
      (Text.beforeNul setup.map) :=
    Reads.terminated (Text.zero_notMem_utf8_beforeNul setup.map)
  have fields := readState_of_reads (readFields_bytes stands) []
  simp only [List.append_nil] at fields
  have highest : ∀ id ∈ arena.walkers.keys.getLast?, ¬ arena.nextId ≤ id := fun id last =>
    UInt32.not_le.mpr
      (stands.issued id (Std.ExtTreeMap.mem_of_mem_keys (List.mem_of_getLast? last)))
  have version := readState_of_reads (Reads.word8 stateVersion)
  have map := readState_of_reads name
  simp only [ofState, shape, Cursor.start, version, bind, Except.bind, map, fields]
  rw [if_neg (not_not_intro rfl)]
  by_cases whole : Text.beforeNul setup.map = setup.map
  · rw [if_neg (not_not_intro whole), if_pos whole]
    cases last : arena.walkers.keys.getLast? with
    | none => rfl
    | some id => exact if_neg (highest id last)
  · rw [if_pos whole, if_neg whole]
    rfl

theorem ofState_save (stands : At setup frame arena) (plain : '\x00' ∉ setup.map.toList) :
    ofState setup arena.save = .ok arena := by
  rw [ofState_save_eq stands, if_pos (Text.beforeNul_of_notMem plain)]

/-! ## Sizes -/

theorem length_savedPoint (point : Point) : (savedPoint point).length = 8 := by
  rw [savedPoint, List.length_append]
  exact congrArg₂ (· + ·) (Encoding.length_word32 _) (Encoding.length_word32 _)

theorem length_savedWalker_le (id : UInt32) (walker : Walker) :
    (savedWalker id walker).length ≤ 22 := by
  unfold savedWalker
  simp only [List.length_append, List.length_cons, Encoding.length_word32, length_savedPoint]
  split
  · rw [List.length_cons, length_savedPoint]
  · exact Nat.le_add_right 14 8

/-- A saved state is hardly longer than the map's name and the walkers together. -/
theorem length_save_lt (stands : At setup frame arena) (plain : '\x00' ∉ setup.map.toList) :
    arena.save.length < (Text.utf8 setup.map).length + 2 ^ 37 := by
  have walkers : (arena.walkers.toList.flatMap fun entry => savedWalker entry.1 entry.2).length ≤
      22 * arena.walkers.size := by
    rw [← Std.ExtTreeMap.length_toList]
    generalize arena.walkers.toList = list
    induction list with
    | nil => exact Nat.le_refl 0
    | cons first list ih =>
        have one := length_savedWalker_le first.1 first.2
        rw [List.flatMap_cons, List.length_append, List.length_cons, Nat.mul_succ]
        omega
  have count := stands.size_le
  have room := arena.nextId.toNat_lt
  have name : Text.beforeNul ((arena.setup.map Setup.map).getD "") = setup.map := by
    rw [stands.setup]
    exact Text.beforeNul_of_notMem plain
  rw [save, Encoding.terminated, name]
  simp only [List.length_append, List.length_cons, List.length_nil, Encoding.length_word32]
  omega

end MatchTape.World.Arena
