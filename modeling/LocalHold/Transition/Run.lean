import Mathlib.Data.Option.Basic
import Mathlib.Data.List.Basic
import Mathlib.Data.List.Induction

/-!
# Runs of a labelled partial transition function

A step takes a state and an action and either produces the next state or is
not enabled.  A run folds a list of actions; a disabled action makes the whole
run undefined, so a defined run is exactly a sequence of enabled steps.

The rules below lift a fact about one step to every run.  The guarded rule
allows the step fact to assume a condition on the state before the step and
the action taken there.
-/

namespace Transition

universe u v

variable {σ : Type u} {α : Type v}

/-- Perform a list of actions from left to right. -/
def run (step : σ → α → Option σ) : σ → List α → Option σ
  | state, [] => some state
  | state, action :: rest => (step state action).bind fun next => run step next rest

/-- Every action of a run meets a condition in the state it is taken from. -/
def Guarded (step : σ → α → Option σ) (allowed : σ → α → Prop) : σ → List α → Prop
  | _, [] => True
  | state, action :: rest =>
      allowed state action ∧ ∀ next, step state action = some next → Guarded step allowed next rest

instance decidableGuarded (step : σ → α → Option σ) (allowed : σ → α → Prop)
    [∀ state action, Decidable (allowed state action)] :
    ∀ state actions, Decidable (Guarded step allowed state actions)
  | _, [] => isTrue trivial
  | state, action :: rest =>
      match stepEq : step state action with
      | none => decidable_of_iff (allowed state action)
          ⟨fun holds => ⟨holds, fun _ other => nomatch stepEq.symm.trans other⟩, And.left⟩
      | some next =>
          have := decidableGuarded step allowed next rest
          decidable_of_iff (allowed state action ∧ Guarded step allowed next rest)
            ⟨fun holds => ⟨holds.1, fun _ other =>
              Option.some.inj (stepEq.symm.trans other) ▸ holds.2⟩,
              fun guarded => ⟨guarded.1, guarded.2 next stepEq⟩⟩

theorem Guarded.cons {step : σ → α → Option σ} {allowed : σ → α → Prop} {state next : σ}
    {action : α} {rest : List α} (holds : allowed state action)
    (stepEq : step state action = some next) (later : Guarded step allowed next rest) :
    Guarded step allowed state (action :: rest) := by
  refine ⟨holds, fun other otherEq => ?_⟩
  rw [stepEq] at otherEq
  cases otherEq
  exact later

theorem Guarded.of_append {step : σ → α → Option σ} {allowed : σ → α → Prop} {state : σ}
    {first second : List α} (guarded : Guarded step allowed state (first ++ second)) :
    Guarded step allowed state first := by
  induction first generalizing state with
  | nil => trivial
  | cons action rest inductionHypothesis =>
      exact ⟨guarded.1, fun next stepEq => inductionHypothesis (guarded.2 next stepEq)⟩

/-- A condition on actions alone guards every run. -/
theorem Guarded.of_forall {step : σ → α → Option σ} {allowed : α → Prop} {actions : List α}
    (holds : ∀ action ∈ actions, allowed action) (state : σ) :
    Guarded step (fun _ => allowed) state actions := by
  induction actions generalizing state with
  | nil => trivial
  | cons action rest inductionHypothesis =>
      refine ⟨holds action List.mem_cons_self, fun next _ => ?_⟩
      exact inductionHypothesis (fun later laterMem =>
        holds later (List.mem_cons_of_mem action laterMem)) next

@[simp]
theorem run_nil (step : σ → α → Option σ) (state : σ) : run step state [] = some state :=
  rfl

theorem run_cons_eq_some_iff {step : σ → α → Option σ} {state final : σ} {action : α}
    {rest : List α} :
    run step state (action :: rest) = some final ↔
      ∃ next, step state action = some next ∧ run step next rest = some final := by
  simp [run, Option.bind_eq_some_iff]

theorem run_append_eq_some_iff {step : σ → α → Option σ} {state final : σ}
    {first second : List α} :
    run step state (first ++ second) = some final ↔
      ∃ middle, run step state first = some middle ∧ run step middle second = some final := by
  induction first generalizing state with
  | nil => simp
  | cons action rest inductionHypothesis =>
      rw [List.cons_append, run_cons_eq_some_iff]
      constructor
      · rintro ⟨next, stepEq, restRun⟩
        rcases inductionHypothesis.mp restRun with ⟨middle, firstRun, secondRun⟩
        exact ⟨middle, run_cons_eq_some_iff.mpr ⟨next, stepEq, firstRun⟩, secondRun⟩
      · rintro ⟨middle, firstRun, secondRun⟩
        rcases run_cons_eq_some_iff.mp firstRun with ⟨next, stepEq, restRun⟩
        exact ⟨next, stepEq, inductionHypothesis.mpr ⟨middle, restRun, secondRun⟩⟩

/-- Actions that every state allows may be followed by one that the state they
lead to allows. -/
theorem Guarded.concat {step : σ → α → Option σ} {allowed : σ → α → Prop} {state middle : σ}
    {first : List α} {action : α} (holds : ∀ earlier ∈ first, ∀ before, allowed before earlier)
    (firstRun : run step state first = some middle) (last : allowed middle action) :
    Guarded step allowed state (first ++ [action]) := by
  induction first generalizing state with
  | nil =>
      cases firstRun
      exact ⟨last, fun _ _ => trivial⟩
  | cons earlier rest inductionHypothesis =>
      obtain ⟨next, stepEq, restRun⟩ := run_cons_eq_some_iff.mp firstRun
      refine Guarded.cons (holds earlier List.mem_cons_self state) stepEq ?_
      exact inductionHypothesis (fun later laterMem =>
        holds later (List.mem_cons_of_mem earlier laterMem)) restRun

/-- A guarded run takes each action where its guard holds. -/
theorem Guarded.allowed_at {step : σ → α → Option σ} {allowed : σ → α → Prop}
    {state middle : σ} {first second : List α} {action : α}
    (guarded : Guarded step allowed state (first ++ action :: second))
    (firstRun : run step state first = some middle) : allowed middle action := by
  induction first generalizing state with
  | nil =>
      cases firstRun
      exact guarded.1
  | cons earlier rest inductionHypothesis =>
      rcases run_cons_eq_some_iff.mp firstRun with ⟨next, stepEq, restRun⟩
      exact inductionHypothesis (guarded.2 next stepEq) restRun

/-- A property kept by every step whose action meets its guard is kept by every
guarded run. -/
theorem run_invariant_of_guarded {step : σ → α → Option σ} {allowed : σ → α → Prop}
    {invariant : σ → Prop}
    (preserved : ∀ state action next, invariant state → allowed state action →
      step state action = some next → invariant next)
    {state final : σ} {actions : List α} (guarded : Guarded step allowed state actions)
    (holds : invariant state) (runEq : run step state actions = some final) :
    invariant final := by
  induction actions generalizing state with
  | nil =>
      cases runEq
      exact holds
  | cons action rest inductionHypothesis =>
      rcases run_cons_eq_some_iff.mp runEq with ⟨next, stepEq, restRun⟩
      exact inductionHypothesis (guarded.2 next stepEq)
        (preserved state action next holds guarded.1 stepEq) restRun

/-- A property kept by every step is kept by every run. -/
theorem run_invariant {step : σ → α → Option σ} {invariant : σ → Prop}
    (preserved : ∀ state action next, invariant state → step state action = some next →
      invariant next)
    {state final : σ} {actions : List α} (holds : invariant state)
    (runEq : run step state actions = some final) : invariant final := by
  induction actions generalizing state with
  | nil =>
      cases runEq
      exact holds
  | cons action rest inductionHypothesis =>
      rcases run_cons_eq_some_iff.mp runEq with ⟨next, stepEq, restRun⟩
      exact inductionHypothesis (preserved state action next holds stepEq) restRun

/-- A property of the actions taken so far and the state they led to. -/
theorem run_history {step : σ → α → Option σ} {start : σ} {holds : List α → σ → Prop}
    (opening : holds [] start)
    (preserved : ∀ past state action next, run step start past = some state → holds past state →
      step state action = some next → holds (past ++ [action]) next)
    {actions : List α} {final : σ} (runEq : run step start actions = some final) :
    holds actions final := by
  induction actions using List.reverseRecOn generalizing final with
  | nil =>
      cases runEq
      exact opening
  | append_singleton past action inductionHypothesis =>
      rcases run_append_eq_some_iff.mp runEq with ⟨state, pastRun, lastRun⟩
      rcases run_cons_eq_some_iff.mp lastRun with ⟨next, stepEq, done⟩
      cases done
      exact preserved past state action final pastRun (inductionHypothesis pastRun) stepEq

/-- A state that a run passes through. -/
def PassedThrough (step : σ → α → Option σ) (start : σ) (actions : List α) (state : σ) : Prop :=
  ∃ earlier later, earlier ++ later = actions ∧ run step start earlier = some state

theorem passedThrough_final {step : σ → α → Option σ} {start final : σ} {actions : List α}
    (runEq : run step start actions = some final) : PassedThrough step start actions final :=
  ⟨actions, [], List.append_nil actions, runEq⟩

theorem PassedThrough.longer {step : σ → α → Option σ} {start state : σ} {past : List α}
    (passed : PassedThrough step start past state) (more : List α) :
    PassedThrough step start (past ++ more) state := by
  rcases passed with ⟨earlier, later, rfl, earlierRun⟩
  exact ⟨earlier, later ++ more, (List.append_assoc earlier later more).symm, earlierRun⟩

/-- A reflexive and transitive relation that holds across every step from an
invariant state holds across every run. -/
theorem run_relation {step : σ → α → Option σ} {invariant : σ → Prop}
    {related : σ → σ → Prop} (refl : ∀ state, related state state)
    (trans : ∀ first second third, related first second → related second third →
      related first third)
    (preserved : ∀ state action next, invariant state → step state action = some next →
      invariant next ∧ related state next)
    {state final : σ} {actions : List α} (holds : invariant state)
    (runEq : run step state actions = some final) : related state final := by
  induction actions generalizing state with
  | nil =>
      cases runEq
      exact refl _
  | cons action rest inductionHypothesis =>
      rcases run_cons_eq_some_iff.mp runEq with ⟨next, stepEq, restRun⟩
      have nextFacts := preserved state action next holds stepEq
      exact trans state next final nextFacts.2 (inductionHypothesis nextFacts.1 restRun)

end Transition
