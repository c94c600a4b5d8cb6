import LocalHold.Hierarchy.Ancestry

/-!
# The nodes of a climb

A climb that stops at the top or at a node met before visits exactly the
ancestors of the node it starts below, also on a cycle.
-/

namespace Hierarchy

universe u

variable {α : Type u} [DecidableEq α]

/-- The nodes that a climb from a cursor meets, up to the first repetition. -/
def visits (parent : α → Option α) : Nat → List α → Option α → List α
  | 0, _, _ => []
  | _ + 1, _, none => []
  | fuel + 1, visited, some node =>
      if node ∈ visited then [] else node :: visits parent fuel (node :: visited) (parent node)

variable {parent : α → Option α}

@[simp]
theorem visits_none (parent : α → Option α) (fuel : Nat) (visited : List α) :
    visits parent fuel visited none = [] := by
  cases fuel <;> rfl

/-- A node not met before is visited exactly when a search for it succeeds. -/
theorem mem_visits_iff_searchUp {target : α} {fuel : Nat} :
    ∀ {visited : List α} {cursor : Option α}, target ∉ visited →
      (target ∈ visits parent fuel visited cursor ↔
        searchUp parent target fuel visited cursor = true) := by
  induction fuel with
  | zero =>
      intro visited cursor _
      simp [visits, searchUp]
  | succ fuel inductionHypothesis =>
      intro visited cursor unmet
      cases cursor with
      | none => simp [visits, searchUp]
      | some node =>
          rw [visits, searchUp]
          by_cases here : node = target
          · rw [here, if_neg unmet, if_pos rfl]
            simp
          · rw [if_neg here]
            by_cases met : node ∈ visited
            · rw [if_pos met, if_pos met]
              simp
            · rw [if_neg met, if_neg met, List.mem_cons]
              have later : target ∉ node :: visited := by
                rw [List.mem_cons, not_or]
                exact ⟨Ne.symm here, unmet⟩
              rw [inductionHypothesis later]
              constructor
              · rintro (same | found)
                · exact absurd same.symm here
                · exact found
              · exact Or.inr

/-- The climb from the parent of a node visits exactly its ancestors. -/
theorem mem_visits_parent_iff {nodes : List α} {fuel : Nat} {target node : α}
    (parentsMem : ∀ child up, parent child = some up → up ∈ nodes)
    (enough : nodes.length ≤ fuel) :
    target ∈ visits parent fuel [] (parent node) ↔ Above parent target node := by
  rw [mem_visits_iff_searchUp List.not_mem_nil]
  exact searchUp_parent_iff parentsMem enough

end Hierarchy
