import Mathlib

/-!
# Workers that take turns

The local states of any number of workers are kept in a list, in the order in
which the workers started.  One step replaces the local state of one worker.
The rules below say how counts and existence facts about the workers change.
-/

namespace Transition

universe u

variable {α : Type u} {workers : List α} {index : Nat} {old new : α}

/-- Replacing a local state moves the worker from one count to another. -/
theorem countP_set_of_getElem? (counted : α → Bool) (new : α)
    (found : workers[index]? = some old) :
    (workers.set index new).countP counted + (if counted old then 1 else 0) =
      workers.countP counted + (if counted new then 1 else 0) := by
  obtain ⟨bound, atIndex⟩ := List.getElem?_eq_some_iff.mp found
  have counts : (if counted old then 1 else 0) ≤ workers.countP counted := by
    rw [← atIndex]
    exact List.boole_getElem_le_countP bound
  rw [List.countP_set bound, atIndex]
  omega

/-- Replacing a local state changes a total by what that worker contributes. -/
theorem sum_map_set_of_getElem? (weight : α → Nat) (new : α) (found : workers[index]? = some old) :
    ((workers.set index new).map weight).sum + weight old =
      (workers.map weight).sum + weight new := by
  induction workers generalizing index with
  | nil => cases found
  | cons first rest inductionHypothesis =>
      cases index with
      | zero =>
          cases found
          rw [List.set_cons_zero, List.map_cons, List.map_cons, List.sum_cons, List.sum_cons]
          omega
      | succ index =>
          rw [List.set_cons_succ, List.map_cons, List.map_cons, List.sum_cons, List.sum_cons,
            Nat.add_assoc, inductionHypothesis found, Nat.add_assoc]

/-- The worker that has just moved. -/
theorem exists_set_new {fact : α → Prop} (found : workers[index]? = some old)
    (holds : fact new) : ∃ worker ∈ workers.set index new, fact worker := by
  obtain ⟨bound, _⟩ := List.getElem?_eq_some_iff.mp found
  exact ⟨new, List.mem_set bound new, holds⟩

/-- A worker that has not moved is still there. -/
theorem exists_set_of_exists {fact : α → Prop} (found : workers[index]? = some old)
    (other : ¬ fact old) (exist : ∃ worker ∈ workers, fact worker) :
    ∃ worker ∈ workers.set index new, fact worker := by
  obtain ⟨worker, workerMem, holds⟩ := exist
  obtain ⟨position, positionEq⟩ := List.mem_iff_getElem?.mp workerMem
  have different : index ≠ position := by
    rintro rfl
    rw [found] at positionEq
    cases positionEq
    exact other holds
  refine ⟨worker, List.mem_iff_getElem?.mpr ⟨position, ?_⟩, holds⟩
  rw [List.getElem?_set_ne different]
  exact positionEq

/-- After a move every worker is the one that moved or was there before. -/
theorem exists_of_exists_set {fact : α → Prop}
    (exist : ∃ worker ∈ workers.set index new, fact worker) :
    fact new ∨ ∃ worker ∈ workers, fact worker := by
  obtain ⟨worker, workerMem, holds⟩ := exist
  rcases List.mem_or_eq_of_mem_set workerMem with before | rfl
  · exact Or.inr ⟨worker, before, holds⟩
  · exact Or.inl holds

end Transition
