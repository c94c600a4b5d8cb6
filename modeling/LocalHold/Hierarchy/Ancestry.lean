import Mathlib.Data.List.FinRange
import Mathlib.Data.List.Nodup
import Mathlib.Data.List.Perm.Subperm
import Mathlib.Data.Nat.Find
import Mathlib.Logic.Relation

/-!
# Parent chains

A hierarchy is given by the parent of each node, if it has one.  The parent
function may lead into a cycle or out of the nodes under consideration, so
programs climb it with a list of visited nodes and a bound.  `searchUp` is such
a climb; it decides `Above` as soon as the bound covers the nodes that occur as
parents.
-/

namespace Hierarchy

universe u

variable {α : Type u} {parent : α → Option α}

/-- Repeated parents lead from a node to an ancestor. -/
def Above (parent : α → Option α) (ancestor node : α) : Prop :=
  Relation.TransGen (fun child up => parent child = some up) node ancestor

theorem Above.of_parent {node up : α} (linked : parent node = some up) : Above parent up node :=
  Relation.TransGen.single linked

theorem Above.trans {top middle node : α} (upper : Above parent top middle)
    (lower : Above parent middle node) : Above parent top node :=
  Relation.TransGen.trans lower upper

/-- The ancestors of a node are its parent and the ancestors of its parent. -/
theorem above_iff_of_parent {ancestor node up : α} (linked : parent node = some up) :
    Above parent ancestor node ↔ ancestor = up ∨ Above parent ancestor up := by
  constructor
  · intro above
    rcases Relation.TransGen.head'_iff.mp above with ⟨next, nextLinked, path⟩
    have same : next = up := Option.some.inj (nextLinked.symm.trans linked)
    subst same
    rcases Relation.reflTransGen_iff_eq_or_transGen.mp path with equal | further
    · exact Or.inl equal
    · exact Or.inr further
  · rintro (rfl | above)
    · exact Above.of_parent linked
    · exact above.trans (Above.of_parent linked)

theorem not_above_of_parent_none {ancestor node : α} (root : parent node = none) :
    ¬Above parent ancestor node := by
  intro above
  obtain ⟨next, linked, _⟩ := Relation.TransGen.head'_iff.mp above
  rw [root] at linked
  cases linked

/-- The node reached by climbing a number of parent links. -/
def climb (parent : α → Option α) : Nat → α → Option α
  | 0, node => some node
  | steps + 1, node => (parent node).bind (climb parent steps)

theorem climb_add (first second : Nat) (node : α) :
    climb parent (first + second) node = (climb parent first node).bind (climb parent second) := by
  induction first generalizing node with
  | zero => simp [climb]
  | succ first inductionHypothesis =>
      rw [Nat.succ_add]
      cases linked : parent node with
      | none => simp [climb, linked]
      | some up => simp [climb, linked, inductionHypothesis]

theorem climb_succ_eq_parent {steps : Nat} {node middle : α}
    (climbed : climb parent steps node = some middle) :
    climb parent (steps + 1) node = parent middle := by
  rw [climb_add, climbed]
  simp [climb]

theorem exists_climb_of_above {ancestor node : α} (above : Above parent ancestor node) :
    ∃ steps, climb parent (steps + 1) node = some ancestor := by
  induction above with
  | single linked => exact ⟨0, by simp [climb, linked]⟩
  | tail _ linked inductionHypothesis =>
      obtain ⟨steps, climbed⟩ := inductionHypothesis
      exact ⟨steps + 1, by rw [climb_succ_eq_parent climbed, linked]⟩

theorem above_of_climb {ancestor : α} {steps : Nat} :
    ∀ {node : α}, climb parent (steps + 1) node = some ancestor →
      Above parent ancestor node := by
  induction steps with
  | zero =>
      intro node climbed
      apply Above.of_parent
      simpa [climb] using climbed
  | succ steps inductionHypothesis =>
      intro node climbed
      cases linked : parent node with
      | none => simp [climb, linked] at climbed
      | some up =>
          have further : climb parent (steps + 1) up = some ancestor := by
            simpa [climb, linked] using climbed
          exact (inductionHypothesis further).trans (Above.of_parent linked)

/-- No node lies above itself. -/
def Acyclic (parent : α → Option α) : Prop :=
  ∀ node, ¬Above parent node node

/-- In an acyclic hierarchy a climb never comes back to a node. -/
theorem Acyclic.climb_ne (acyclic : Acyclic parent) {early late : Nat} (earlier : early < late)
    {start node : α} (climbed : climb parent early start = some node) :
    climb parent late start ≠ some node := by
  intro again
  rw [show late = early + (late - early - 1 + 1) by omega, climb_add, climbed,
    Option.bind_some] at again
  exact acyclic node (above_of_climb again)

/-- Fewer links leave a hierarchy acyclic. -/
theorem Acyclic.mono {fewer : α → Option α} (acyclic : Acyclic parent)
    (kept : ∀ node up, fewer node = some up → parent node = some up) : Acyclic fewer :=
  fun node above => acyclic node (Relation.TransGen.mono kept node node above)

/-- A node may be linked to one that is neither the node nor below it. -/
theorem Acyclic.relink {linked : α → Option α} (acyclic : Acyclic parent) {node up : α}
    (link : linked node = some up) (kept : ∀ other, other ≠ node → linked other = parent other)
    (distinct : node ≠ up) (notAbove : ¬Above parent node up) : Acyclic linked := by
  have fromUp : ∀ {top : α},
      Relation.ReflTransGen (fun child up => linked child = some up) up top → top ≠ node := by
    intro top path
    have above : top = up ∨ Above parent top up := by
      induction path with
      | refl => exact Or.inl rfl
      | @tail middle top _ edge inductionHypothesis =>
          have other : middle ≠ node := by
            rintro rfl
            rcases inductionHypothesis with equal | above
            · exact distinct equal
            · exact notAbove above
          have edge : parent middle = some top := by
            rw [← kept middle other]
            exact edge
          rcases inductionHypothesis with rfl | above
          · exact Or.inr (Above.of_parent edge)
          · exact Or.inr ((Above.of_parent edge).trans above)
    rintro rfl
    rcases above with equal | above
    · exact distinct equal
    · exact notAbove above
  have split : ∀ {start top : α}, Above linked top start → Above parent top start ∨
      (Relation.ReflTransGen (fun child up => linked child = some up) start node ∧
        Relation.ReflTransGen (fun child up => linked child = some up) up top) := by
    intro start top path
    induction path with
    | @single top edge =>
        by_cases here : start = node
        · subst here
          cases Option.some.inj (link.symm.trans edge)
          exact Or.inr ⟨.refl, .refl⟩
        · rw [kept start here] at edge
          exact Or.inl (Above.of_parent edge)
    | @tail middle top path edge inductionHypothesis =>
        rcases inductionHypothesis with above | ⟨toNode, fromLink⟩
        · by_cases here : middle = node
          · subst here
            cases Option.some.inj (link.symm.trans edge)
            exact Or.inr ⟨path.to_reflTransGen, .refl⟩
          · rw [kept middle here] at edge
            exact Or.inl ((Above.of_parent edge).trans above)
        · exact Or.inr ⟨toNode, fromLink.tail edge⟩
  intro start cycle
  rcases split cycle with above | ⟨toNode, fromLink⟩
  · exact acyclic start above
  · exact fromUp (fromLink.trans toNode) rfl

/-! ## Shortest climbs -/

/-- No shorter climb reaches the target. -/
def ShortestClimb (parent : α → Option α) (start target : α) (steps : Nat) : Prop :=
  climb parent steps start = some target ∧
    ∀ fewer < steps, climb parent fewer start ≠ some target

theorem exists_shortestClimb {start target : α} {steps : Nat}
    (climbed : climb parent steps start = some target) :
    ∃ fewest, ShortestClimb parent start target fewest := by
  classical
  have reachable : ∃ steps, climb parent steps start = some target := ⟨steps, climbed⟩
  exact ⟨Nat.find reachable, Nat.find_spec reachable, fun fewer lower =>
    Nat.find_min reachable lower⟩

/-- A shortest climb meets no node twice. -/
theorem ShortestClimb.climb_ne {start target node : α} {steps early late : Nat}
    (shortest : ShortestClimb parent start target steps) (earlier : early < late)
    (bounded : late ≤ steps) (climbedLate : climb parent late start = some node) :
    climb parent early start ≠ some node := by
  intro climbedEarly
  have rest : climb parent (steps - late) node = some target := by
    have whole := shortest.1
    rw [show steps = late + (steps - late) by omega, climb_add, climbedLate] at whole
    exact whole
  have shortcut : climb parent (early + (steps - late)) start = some target := by
    rw [climb_add, climbedEarly]
    exact rest
  exact shortest.2 _ (by omega) shortcut

/-- Every node on the way of a climb exists. -/
theorem climb_isSome_of_le {start target : α} {steps fewer : Nat}
    (climbed : climb parent steps start = some target) (bounded : fewer ≤ steps) :
    ∃ node, climb parent fewer start = some node := by
  cases reached : climb parent fewer start with
  | some node => exact ⟨node, rfl⟩
  | none =>
      rw [show steps = fewer + (steps - fewer) by omega, climb_add, reached] at climbed
      cases climbed

/-- A shortest climb is no longer than the nodes it can visit. -/
theorem ShortestClimb.lt_length {start target : α} {steps : Nat} {nodes : List α}
    (shortest : ShortestClimb parent start target steps) (startMem : start ∈ nodes)
    (parentsMem : ∀ child up, parent child = some up → up ∈ nodes) :
    steps < nodes.length := by
  have visitedMem : ∀ fewer node, climb parent fewer start = some node → node ∈ nodes := by
    intro fewer node climbed
    cases fewer with
    | zero =>
        cases climbed
        exact startMem
    | succ fewer =>
        obtain ⟨before, reached⟩ := climb_isSome_of_le climbed (Nat.le_succ fewer)
        rw [climb_succ_eq_parent reached] at climbed
        exact parentsMem before node climbed
  have visited : ∀ fewer : Fin (steps + 1), ∃ node, climb parent fewer start = some node :=
    fun fewer => climb_isSome_of_le shortest.1 (Nat.lt_succ_iff.mp fewer.isLt)
  choose node reached using visited
  have injective : Function.Injective node := by
    intro first second same
    apply Fin.ext
    rcases Nat.lt_trichotomy first second with lower | equal | higher
    · exact absurd (reached first)
        (shortest.climb_ne lower (Nat.lt_succ_iff.mp second.isLt) (same ▸ reached second))
    · exact equal
    · exact absurd (reached second)
        (shortest.climb_ne higher (Nat.lt_succ_iff.mp first.isLt) (same ▸ reached first))
  have listed : ((List.finRange (steps + 1)).map node).Subperm nodes := by
    apply List.subperm_of_subset (List.Nodup.map injective (List.nodup_finRange _))
    intro visitedNode visitedMember
    obtain ⟨fewer, _, rfl⟩ := List.mem_map.mp visitedMember
    exact visitedMem fewer _ (reached fewer)
  have counted := listed.length_le
  simp only [List.length_map, List.length_finRange] at counted
  omega

/-! ## Searching upwards -/

variable [DecidableEq α]

/-- Climb from a cursor until the target, the top, or a node met before. -/
def searchUp (parent : α → Option α) (target : α) : Nat → List α → Option α → Bool
  | 0, _, _ => false
  | _ + 1, _, none => false
  | fuel + 1, visited, some node =>
      if node = target then true
      else if node ∈ visited then false
      else searchUp parent target fuel (node :: visited) (parent node)

theorem eq_or_above_of_searchUp {target : α} {fuel : Nat} :
    ∀ {visited : List α} {node : α}, searchUp parent target fuel visited (some node) = true →
      target = node ∨ Above parent target node := by
  induction fuel with
  | zero =>
      intro visited node found
      simp [searchUp] at found
  | succ fuel inductionHypothesis =>
      intro visited node found
      rw [searchUp] at found
      split at found
      · rename_i here
        exact Or.inl here.symm
      · split at found
        · cases found
        · cases linked : parent node with
          | none =>
              rw [linked] at found
              cases fuel <;> simp [searchUp] at found
          | some up =>
              rw [linked] at found
              exact Or.inr ((above_iff_of_parent linked).mpr (inductionHypothesis found))

/-- The search follows a shortest climb to its end. -/
theorem searchUp_of_shortestClimb {start target : α} {steps : Nat}
    (shortest : ShortestClimb parent start target steps) (left : Nat) :
    ∀ {fuel : Nat} {visited : List α}, left ≤ steps → left < fuel →
      (∀ node ∈ visited, ∃ early < steps - left, climb parent early start = some node) →
      searchUp parent target fuel visited (climb parent (steps - left) start) = true := by
  induction left with
  | zero =>
      intro fuel visited _ enough _
      obtain ⟨fuel, rfl⟩ := Nat.exists_eq_succ_of_ne_zero (Nat.ne_of_gt enough)
      rw [Nat.sub_zero, shortest.1]
      simp [searchUp]
  | succ left inductionHypothesis =>
      intro fuel visited bounded enough visitedEarly
      obtain ⟨fuel, rfl⟩ := Nat.exists_eq_succ_of_ne_zero (by omega : fuel ≠ 0)
      obtain ⟨node, reached⟩ :=
        climb_isSome_of_le shortest.1 (Nat.sub_le steps (left + 1))
      have unvisited : node ∉ visited := by
        intro met
        obtain ⟨early, earlier, climbedEarly⟩ := visitedEarly node met
        exact shortest.climb_ne earlier (Nat.sub_le _ _) reached climbedEarly
      have nextStep : steps - left = steps - (left + 1) + 1 := by omega
      rw [reached, searchUp]
      by_cases here : node = target
      · rw [if_pos here]
      · rw [if_neg here, if_neg unvisited, ← climb_succ_eq_parent reached, ← nextStep]
        apply inductionHypothesis (by omega) (by omega)
        intro other otherMem
        rcases List.mem_cons.mp otherMem with rfl | older
        · exact ⟨steps - (left + 1), by omega, reached⟩
        · obtain ⟨early, earlier, climbedEarly⟩ := visitedEarly other older
          exact ⟨early, by omega, climbedEarly⟩

/-- A search from the parent of a node finds exactly its ancestors. -/
theorem searchUp_parent_iff {nodes : List α} {fuel : Nat} {target node : α}
    (parentsMem : ∀ child up, parent child = some up → up ∈ nodes)
    (enough : nodes.length ≤ fuel) :
    searchUp parent target fuel [] (parent node) = true ↔ Above parent target node := by
  cases linked : parent node with
  | none =>
      have absent : ¬Above parent target node := not_above_of_parent_none linked
      cases fuel <;> simp [searchUp, absent]
  | some up =>
      rw [above_iff_of_parent linked]
      constructor
      · exact eq_or_above_of_searchUp
      · intro above
        have reachable : ∃ steps, climb parent steps up = some target := by
          rcases above with rfl | further
          · exact ⟨0, rfl⟩
          · obtain ⟨steps, climbed⟩ := exists_climb_of_above further
            exact ⟨steps + 1, climbed⟩
        obtain ⟨_, climbed⟩ := reachable
        obtain ⟨steps, shortest⟩ := exists_shortestClimb climbed
        have short := shortest.lt_length (parentsMem node up linked) parentsMem
        have found : searchUp parent target fuel [] (climb parent (steps - steps) up) = true :=
          searchUp_of_shortestClimb shortest steps (Nat.le_refl steps)
            (Nat.lt_of_lt_of_le short enough) (by simp)
        rwa [Nat.sub_self] at found

end Hierarchy
