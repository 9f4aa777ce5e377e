import MatchTape.Proofs.Packet.Message

/-!
# No table of runs is shorter

The runs that are gathered from a list of types are the fewest that stand for it: a reader may
accept a table with empty runs, or with a run that was split, but never one with fewer runs.
-/

namespace MatchTape.Packet.Run

/-- An open run that has come further leads to no fewer runs, and to at most one more. -/
theorem length_gatherFrom_mono (type : ArgumentType) (types : List ArgumentType)
    {fewer more : Nat} (le : fewer ≤ more) :
    (gatherFrom ⟨type, fewer⟩ types).length ≤ (gatherFrom ⟨type, more⟩ types).length ∧
      (gatherFrom ⟨type, more⟩ types).length ≤ (gatherFrom ⟨type, fewer⟩ types).length + 1 := by
  induction types generalizing type fewer more with
  | nil => exact ⟨Nat.le_refl 1, Nat.le_succ 1⟩
  | cons next types ih =>
      rw [gatherFrom, gatherFrom]
      by_cases same : type = next
      · subst same
        simp only [true_and]
        by_cases room : more < most
        · rw [if_pos room, if_pos (Nat.lt_of_le_of_lt le room)]
          exact ih type (Nat.succ_le_succ le)
        · rw [if_neg room, List.length_cons]
          split
          · -- The one that has come further opens a run here, and the other does so later.
            have seam := ih type (Nat.succ_le_succ (Nat.zero_le fewer))
            exact ⟨seam.2, Nat.succ_le_succ seam.1⟩
          · exact ⟨Nat.le_refl _, Nat.le_succ _⟩
      · simp only [same, false_and, if_false, List.length_cons]
        exact ⟨Nat.le_refl _, Nat.le_succ _⟩

/-- An open run in front adds at most one run. -/
theorem length_gatherFrom_le (run : Run) (types : List ArgumentType) :
    (gatherFrom run types).length ≤ (gather types).length + 1 := by
  cases types with
  | nil => exact Nat.le_refl 1
  | cons next types =>
      rw [gatherFrom, gather]
      split
      · next grows =>
          obtain ⟨type, count⟩ := run
          obtain rfl : type = next := grows.1
          exact (length_gatherFrom_mono type types (Nat.succ_le_succ (Nat.zero_le count))).2
      · exact Nat.le_refl _

/-- An open run takes up types of its own as far as there is room. -/
theorem gatherFrom_replicate (type : ArgumentType) {count more : Nat} (room : count + more ≤ most)
    (types : List ArgumentType) :
    gatherFrom ⟨type, count⟩ (List.replicate more type ++ types) =
      gatherFrom ⟨type, count + more⟩ types := by
  induction more generalizing count with
  | zero => rfl
  | succ more ih =>
      have less : count < most := by omega
      have joined : count + 1 + more ≤ most := by omega
      rw [List.replicate_succ, List.cons_append, gatherFrom, if_pos ⟨rfl, less⟩, ih joined,
        Nat.add_right_comm, Nat.add_assoc]

/-- No runs of at most 255 arguments are fewer than those that are gathered. -/
theorem length_gather_le {runs : List Run} (small : ∀ run ∈ runs, run.count ≤ most) :
    (gather (runs.flatMap Run.types)).length ≤ runs.length := by
  induction runs with
  | nil => exact Nat.le_refl 0
  | cons run runs ih =>
      have others := ih fun other member => small other (List.mem_cons_of_mem _ member)
      have room := small run List.mem_cons_self
      obtain ⟨type, count⟩ := run
      rw [List.flatMap_cons, Run.types, List.length_cons]
      cases count with
      | zero => exact Nat.le_succ_of_le others
      | succ count =>
          have one := length_gatherFrom_le ⟨type, 1 + count⟩ (runs.flatMap Run.types)
          rw [List.replicate_succ, List.cons_append, gather,
            gatherFrom_replicate type (by rwa [Nat.add_comm])]
          exact Nat.le_trans one (Nat.succ_le_succ others)

end MatchTape.Packet.Run
