/-!
# Attempts that may fail

Actions on one state are carried out one after another, each on what the one before has left
behind.  An action that fails does not stop those that follow it.
-/

namespace MatchTape

namespace Attempts

variable {ε σ α ι : Type}

def outcome (action : EStateM ε σ α) (state : σ) : Except ε α :=
  match action state with
  | .ok value _ => .ok value
  | .error failure _ => .error failure

def left (action : EStateM ε σ α) (state : σ) : σ :=
  match action state with
  | .ok _ after => after
  | .error _ after => after

variable (action : ι → EStateM ε σ α)

def final : List ι → σ → σ
  | [], state => state
  | item :: items, state => final items (left (action item) state)

def outcomes : List ι → σ → List (Except ε α)
  | [], _ => []
  | item :: items, state =>
      outcome (action item) state :: outcomes items (left (action item) state)

/-- The items on which the action succeeds. -/
def accepted : List ι → σ → List ι
  | [], _ => []
  | item :: items, state =>
      match outcome (action item) state with
      | .ok _ => item :: accepted items (left (action item) state)
      | .error _ => accepted items (left (action item) state)

variable {action} {item : ι} {state after : σ} {value : α} {failure : ε}

theorem outcome_of_ok (done : action item state = .ok value after) :
    outcome (action item) state = .ok value := by
  rw [outcome, done]

theorem outcome_of_error (failed : action item state = .error failure after) :
    outcome (action item) state = .error failure := by
  rw [outcome, failed]

theorem left_of_ok (done : action item state = .ok value after) :
    left (action item) state = after := by
  rw [left, done]

theorem left_of_error (failed : action item state = .error failure after) :
    left (action item) state = after := by
  rw [left, failed]

theorem outcome_map {β : Type} (f : α → β) (action : EStateM ε σ α) (state : σ) :
    outcome (f <$> action) state = (outcome action state).map f := by
  simp only [outcome, Functor.map, EStateM.map]
  cases action state <;> rfl

theorem left_map {β : Type} (f : α → β) (action : EStateM ε σ α) (state : σ) :
    left (f <$> action) state = left action state := by
  simp only [left, Functor.map, EStateM.map]
  cases action state <;> rfl

theorem accepted_cons_of_ok (done : action item state = .ok value after) (items : List ι) :
    accepted action (item :: items) state = item :: accepted action items after := by
  rw [accepted, outcome_of_ok done, left_of_ok done]

theorem accepted_cons_of_error (failed : action item state = .error failure after)
    (items : List ι) :
    accepted action (item :: items) state = accepted action items after := by
  rw [accepted, outcome_of_error failed, left_of_error failed]

theorem final_append (first second : List ι) (state : σ) :
    final action (first ++ second) state = final action second (final action first state) := by
  induction first generalizing state with
  | nil => rfl
  | cons item first ih => exact ih (left (action item) state)

theorem outcomes_append (first second : List ι) (state : σ) :
    outcomes action (first ++ second) state =
      outcomes action first state ++ outcomes action second (final action first state) := by
  induction first generalizing state with
  | nil => rfl
  | cons item first ih => exact congrArg _ (ih (left (action item) state))

theorem outcomes_replicate (still : left (action item) state = state) (times : Nat) :
    outcomes action (List.replicate times item) state =
      List.replicate times (outcome (action item) state) := by
  induction times with
  | zero => rfl
  | succ times ih => rw [List.replicate_succ, outcomes, still, ih, List.replicate_succ]

/-- What every attempt keeps is kept by all of them together. -/
theorem final_induction {motive : σ → Prop}
    (step : ∀ item state, motive state → motive (left (action item) state))
    (items : List ι) {state : σ} (holds : motive state) :
    motive (final action items state) := by
  induction items generalizing state with
  | nil => exact holds
  | cons item items ih => exact ih (step item state holds)

theorem accepted_append (first second : List ι) (state : σ) :
    accepted action (first ++ second) state =
      accepted action first state ++ accepted action second (final action first state) := by
  induction first generalizing state with
  | nil => rfl
  | cons item first ih =>
      cases result : action item state with
      | ok value after =>
          rw [List.cons_append, accepted_cons_of_ok result, accepted_cons_of_ok result, ih,
            List.cons_append, final, left_of_ok result]
      | error failure after =>
          rw [List.cons_append, accepted_cons_of_error result, accepted_cons_of_error result, ih,
            final, left_of_error result]

theorem accepted_sublist (items : List ι) (state : σ) :
    (accepted action items state).Sublist items := by
  induction items generalizing state with
  | nil => exact List.Sublist.refl []
  | cons item items ih =>
      cases result : action item state with
      | ok value after =>
          rw [accepted_cons_of_ok result]
          exact (ih after).cons_cons item
      | error failure after =>
          rw [accepted_cons_of_error result]
          exact (ih after).cons item

/-- All items are accepted if and only if those in front are and then those behind. -/
theorem accepted_append_eq_self {first second : List ι} {state : σ} :
    accepted action (first ++ second) state = first ++ second ↔
      accepted action first state = first ∧
        accepted action second (final action first state) = second := by
  rw [accepted_append]
  constructor
  · intro all
    have front : (accepted action first state).length ≤ first.length :=
      (accepted_sublist first state).length_le
    have back : (accepted action second (final action first state)).length ≤ second.length :=
      (accepted_sublist second _).length_le
    have lengths := congrArg List.length all
    rw [List.length_append, List.length_append] at lengths
    exact List.append_inj all (by omega)
  · rintro ⟨front, back⟩
    rw [front, back]

theorem accepted_singleton_eq_self {item : ι} {state : σ} :
    accepted action [item] state = [item] ↔ ∃ value after, action item state = .ok value after := by
  constructor
  · intro all
    cases result : action item state with
    | ok value after => exact ⟨value, after, rfl⟩
    | error failure after =>
        rw [accepted_cons_of_error result] at all
        cases all
  · rintro ⟨value, after, result⟩
    rw [accepted_cons_of_ok result, accepted]

/-! ## Attempts that can be left out -/

/-- If what fails leaves no trace, the attempts that succeed do so among themselves too, and
lead to the same state. -/
theorem accepted_alone
    (safe : ∀ item state failure after, action item state = .error failure after → after = state)
    (items : List ι) (state : σ) :
    accepted action (accepted action items state) state = accepted action items state ∧
      final action (accepted action items state) state = final action items state := by
  induction items generalizing state with
  | nil => exact ⟨rfl, rfl⟩
  | cons item items ih =>
      cases result : action item state with
      | ok value after =>
          obtain ⟨same, ends⟩ := ih after
          rw [accepted_cons_of_ok result, accepted_cons_of_ok result, same, final, final,
            left_of_ok result, ends]
          exact ⟨rfl, rfl⟩
      | error failure after =>
          obtain rfl := safe item state failure after result
          rw [accepted_cons_of_error result, final, left_of_error result]
          exact ih after

theorem accepted_cons (item : ι) (items : List ι) (state : σ) :
    accepted action (item :: items) state =
      accepted action [item] state ++ accepted action items (left (action item) state) :=
  accepted_append [item] items state

/-- Items that change nothing whatever the state can be left out. -/
theorem filter_alone {kept : ι → Bool}
    (idle : ∀ item, kept item = false → ∀ state, left (action item) state = state)
    (items : List ι) (state : σ) :
    accepted action (items.filter kept) state = (accepted action items state).filter kept ∧
      final action (items.filter kept) state = final action items state := by
  induction items generalizing state with
  | nil => exact ⟨rfl, rfl⟩
  | cons item items ih =>
      obtain ⟨same, ends⟩ := ih (left (action item) state)
      have only : ∀ other ∈ accepted action [item] state, other = item := fun other member =>
        List.mem_singleton.mp ((accepted_sublist [item] state).subset member)
      rw [accepted_cons, List.filter_append, ← same]
      cases keeps : kept item with
      | true =>
          have all : (accepted action [item] state).filter kept = accepted action [item] state :=
            List.filter_eq_self.mpr fun other member => only other member ▸ keeps
          rw [all, List.filter_cons_of_pos keeps, accepted_cons]
          exact ⟨rfl, ends⟩
      | false =>
          have refused : (accepted action [item] state).filter kept = [] :=
            List.filter_eq_nil_iff.mpr fun other member => by simp [only other member, keeps]
          have still := idle item keeps state
          rw [still] at ends
          rw [refused, List.filter_cons_of_neg (by simp [keeps]), still, final, still]
          exact ⟨rfl, ends⟩

end Attempts

end MatchTape
