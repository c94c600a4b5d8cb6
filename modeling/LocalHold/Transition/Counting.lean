import LocalHold.Transition.Run

/-!
# Counting the steps of a run

A run is a list of actions, and some of its steps meet a condition on the state
before, the action and the state after.  A measure of the state that grows by one
at each of these steps, and stays at the others, counts them.
-/

namespace Transition

universe u v

variable {σ : Type u} {α : Type v}

/-- How many steps of a run meet a condition. -/
def occurrences (step : σ → α → Option σ) (counted : σ → α → σ → Bool) : σ → List α → Nat
  | _, [] => 0
  | state, action :: rest =>
      match step state action with
      | none => 0
      | some next =>
          (if counted state action next then 1 else 0) + occurrences step counted next rest

@[simp]
theorem occurrences_nil (step : σ → α → Option σ) (counted : σ → α → σ → Bool) (state : σ) :
    occurrences step counted state [] = 0 :=
  rfl

theorem occurrences_cons {step : σ → α → Option σ} {state next : σ} {action : α}
    (counted : σ → α → σ → Bool) (rest : List α) (stepEq : step state action = some next) :
    occurrences step counted state (action :: rest) =
      (if counted state action next then 1 else 0) + occurrences step counted next rest := by
  rw [occurrences, stepEq]

/-- A measure that grows exactly at the counted steps has grown by their number. -/
theorem measure_eq_add_occurrences {step : σ → α → Option σ} {invariant : σ → Prop}
    {counted : σ → α → σ → Bool} {measure : σ → Nat}
    (grows : ∀ state action next, invariant state → step state action = some next →
      invariant next ∧
        measure next = measure state + (if counted state action next then 1 else 0))
    {state final : σ} {actions : List α} (holds : invariant state)
    (runEq : run step state actions = some final) :
    measure final = measure state + occurrences step counted state actions := by
  induction actions generalizing state with
  | nil =>
      cases runEq
      rfl
  | cons action rest inductionHypothesis =>
      rcases run_cons_eq_some_iff.mp runEq with ⟨next, stepEq, restRun⟩
      rcases grows state action next holds stepEq with ⟨nextHolds, grown⟩
      rw [occurrences_cons counted rest stepEq, ← Nat.add_assoc, ← grown]
      exact inductionHypothesis nextHolds restRun

end Transition
