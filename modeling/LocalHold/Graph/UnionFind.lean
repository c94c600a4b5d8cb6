import Mathlib

/-!
# Union-find with path halving

A forest gives every item a parent; ranks grow towards the roots, so no chain of
parents returns to where it was.  Finding a root halves the path to it, and
uniting two items links the root of smaller rank to the other.  Finds change no
root, and a union joins the trees of its items and no others: uniting the edges
of a graph leaves one tree for each connected component.
-/

namespace Graph

universe u

variable {ι : Type u} [DecidableEq ι]

/-- A parent for each item, with ranks that grow along it. -/
structure Forest (ι : Type u) where
  parent : ι → ι
  rank : ι → Nat
  climbs : ∀ i, parent i ≠ i → rank i < rank (parent i)

namespace Forest

/-- Every item is a root. -/
def discrete : Forest ι where
  parent := id
  rank _ := 0
  climbs _ moved := absurd rfl moved

omit [DecidableEq ι] in
theorem parent_parent_ne (forest : Forest ι) {i : ι} (moved : forest.parent i ≠ i) :
    forest.parent (forest.parent i) ≠ i := by
  intro returned
  have first := forest.climbs i moved
  have second := forest.climbs (forest.parent i) (by rw [returned]; exact Ne.symm moved)
  rw [returned] at second
  exact Nat.lt_asymm first second

omit [DecidableEq ι] in
theorem rank_lt_parent_parent (forest : Forest ι) {i : ι} (moved : forest.parent i ≠ i) :
    forest.rank i < forest.rank (forest.parent (forest.parent i)) := by
  have first := forest.climbs i moved
  by_cases atRoot : forest.parent (forest.parent i) = forest.parent i
  · rw [atRoot]
    exact first
  · exact first.trans (forest.climbs _ atRoot)

/-- `parent[i] = parent[parent[i]]`. -/
def halve (forest : Forest ι) (i : ι) : Forest ι where
  parent := Function.update forest.parent i (forest.parent (forest.parent i))
  rank := forest.rank
  climbs := by
    intro j moved
    by_cases same : j = i
    · subst same
      rw [Function.update_self] at moved ⊢
      by_cases root : forest.parent j = j
      · rw [root, root] at moved
        exact absurd rfl moved
      · exact forest.rank_lt_parent_parent root
    · rw [Function.update_of_ne same] at moved ⊢
      exact forest.climbs j moved

/-- Make a root the child of another root of at least its rank; a tie raises the
rank of the new parent. -/
def link (forest : Forest ι) (child top : ι) (topIsRoot : forest.parent top = top)
    (differ : child ≠ top) (ordered : forest.rank child ≤ forest.rank top) : Forest ι where
  parent := Function.update forest.parent child top
  rank :=
    if forest.rank child = forest.rank top then
      Function.update forest.rank top (forest.rank top + 1)
    else
      forest.rank
  climbs := by
    have raised (j : ι) : forest.rank j ≤ (if forest.rank child = forest.rank top then
        Function.update forest.rank top (forest.rank top + 1) else forest.rank) j := by
      split
      · by_cases same : j = top
        · subst same
          simp
        · simp [same]
      · exact Nat.le_refl _
    intro j moved
    by_cases same : j = child
    · subst same
      rw [Function.update_self]
      split
      case isTrue tie =>
        rw [Function.update_of_ne differ, Function.update_self]
        omega
      case isFalse untied => omega
    · rw [Function.update_of_ne same] at moved ⊢
      have notTop : j ≠ top := by
        rintro rfl
        exact moved topIsRoot
      have climbed := forest.climbs j moved
      have unchanged : (if forest.rank child = forest.rank top then
          Function.update forest.rank top (forest.rank top + 1) else forest.rank) j =
            forest.rank j := by
        split
        · exact Function.update_of_ne notTop _ _
        · rfl
      rw [unchanged]
      exact climbed.trans_le (raised _)

/-- How far the rank of an item lies below the largest. -/
def depth [Fintype ι] (forest : Forest ι) (i : ι) : Nat :=
  Finset.univ.sup forest.rank - forest.rank i

omit [DecidableEq ι] in
theorem depth_lt [Fintype ι] {forest : Forest ι} {i j : ι} (climbed : forest.rank i < forest.rank j) :
    forest.depth j < forest.depth i := by
  have most : forest.rank j ≤ Finset.univ.sup forest.rank :=
    Finset.le_sup (f := forest.rank) (Finset.mem_univ j)
  simp only [depth]
  omega

/-- `uf_find`: climb to the root, halving the path. -/
def find [Fintype ι] (forest : Forest ι) (i : ι) : ι × Forest ι :=
  if forest.parent i = i then
    (i, forest)
  else
    (forest.halve i).find (forest.parent (forest.parent i))
termination_by forest.depth i
decreasing_by
  exact @depth_lt _ _ forest _ _ (forest.rank_lt_parent_parent ‹_›)

/-- The root above an item. -/
def root [Fintype ι] (forest : Forest ι) (i : ι) : ι :=
  if forest.parent i = i then i else forest.root (forest.parent i)
termination_by forest.depth i
decreasing_by
  exact @depth_lt _ _ forest _ _ (forest.climbs i ‹_›)

/-! ## Roots -/

section Roots

variable [Fintype ι] {forest : Forest ι}

theorem root_of_isRoot {i : ι} (isRoot : forest.parent i = i) : forest.root i = i := by
  rw [root, if_pos isRoot]

@[simp]
theorem root_parent (forest : Forest ι) (i : ι) : forest.root (forest.parent i) = forest.root i := by
  by_cases isRoot : forest.parent i = i
  · rw [isRoot]
  · rw [root.eq_1 forest i, if_neg isRoot]

theorem parent_root (forest : Forest ι) (i : ι) : forest.parent (forest.root i) = forest.root i := by
  induction i using root.induct forest with
  | case1 i isRoot => rw [root_of_isRoot isRoot, isRoot]
  | case2 i moved inductionHypothesis =>
      rw [← root_parent forest i]
      exact inductionHypothesis

/-- The root map is the one that fixes roots and agrees along parents. -/
theorem root_eq_of_invariant (value : ι → ι) (fixes : ∀ i, forest.parent i = i → value i = i)
    (agrees : ∀ i, value (forest.parent i) = value i) (i : ι) : forest.root i = value i := by
  induction i using root.induct forest with
  | case1 i isRoot => rw [root_of_isRoot isRoot, fixes i isRoot]
  | case2 i moved inductionHypothesis =>
      rw [← root_parent forest i, inductionHypothesis, agrees]

/-- Halving a path moves no root. -/
theorem root_halve (forest : Forest ι) (i : ι) : (forest.halve i).root = forest.root := by
  funext j
  refine root_eq_of_invariant _ (fun k isRoot => ?_) (fun k => ?_) j
  · by_cases same : k = i
    · subst same
      simp only [halve, Function.update_self] at isRoot
      by_cases wasRoot : forest.parent k = k
      · exact root_of_isRoot wasRoot
      · exact absurd isRoot (forest.parent_parent_ne wasRoot)
    · simp only [halve, Function.update_of_ne same] at isRoot
      exact root_of_isRoot isRoot
  · by_cases same : k = i
    · subst same
      simp [halve]
    · simp [halve, same]

theorem find_eq (forest : Forest ι) (i : ι) :
    (forest.find i).1 = forest.root i ∧ (forest.find i).2.root = forest.root := by
  induction forest, i using find.induct with
  | case1 forest i isRoot =>
      rw [find, if_pos isRoot]
      exact ⟨(root_of_isRoot isRoot).symm, rfl⟩
  | case2 forest i moved inductionHypothesis =>
      rw [find, if_neg moved]
      rw [root_halve] at inductionHypothesis
      refine ⟨?_, inductionHypothesis.2⟩
      rw [inductionHypothesis.1, root_parent, root_parent]

@[simp]
theorem find_fst (forest : Forest ι) (i : ι) : (forest.find i).1 = forest.root i :=
  (find_eq forest i).1

@[simp]
theorem root_find (forest : Forest ι) (i : ι) : (forest.find i).2.root = forest.root :=
  (find_eq forest i).2

/-! ## Unions -/

theorem parent_find_fst (forest : Forest ι) (i : ι) {later : Forest ι}
    (same : later.root = forest.root) : later.parent (forest.find i).1 = (forest.find i).1 := by
  rw [find_fst, ← same]
  exact later.parent_root i

/-- `uf_union`: link the root of smaller rank to the other; with equal ranks the
second root becomes the child. -/
def union (forest : Forest ι) (a b : ι) : Forest ι :=
  let first := forest.find a
  let second := first.2.find b
  let merged := second.2
  have sameRoots : merged.root = forest.root := by
    rw [root_find, root_find]
  have firstIsRoot : merged.parent first.1 = first.1 := parent_find_fst forest a sameRoots
  have secondIsRoot : merged.parent second.1 = second.1 :=
    parent_find_fst first.2 b (root_find first.2 b)
  if same : first.1 = second.1 then
    merged
  else if below : merged.rank first.1 < merged.rank second.1 then
    merged.link first.1 second.1 secondIsRoot same below.le
  else
    merged.link second.1 first.1 firstIsRoot (Ne.symm same) (Nat.not_lt.mp below)

theorem root_link {child top : ι} (childIsRoot : forest.parent child = child)
    (topIsRoot : forest.parent top = top) (differ : child ≠ top)
    (ordered : forest.rank child ≤ forest.rank top) (j : ι) :
    (forest.link child top topIsRoot differ ordered).root j =
      if forest.root j = child then top else forest.root j := by
  have rootChild := root_of_isRoot childIsRoot
  have rootTop := root_of_isRoot topIsRoot
  refine root_eq_of_invariant (fun j =>
    if forest.root j = child then top else forest.root j) (fun k isRoot => ?_) (fun k => ?_) j
  · by_cases same : k = child
    · subst same
      simp only [link, Function.update_self] at isRoot
      exact absurd isRoot.symm differ
    · simp only [link, Function.update_of_ne same] at isRoot
      simp only [root_of_isRoot isRoot, if_neg same]
  · by_cases same : k = child
    · subst same
      simp only [link, Function.update_self, rootTop, rootChild, if_true, if_neg (Ne.symm differ)]
    · simp only [link, Function.update_of_ne same, root_parent]

/-- Items of one tree. -/
def trees (forest : Forest ι) : Setoid ι :=
  Setoid.ker forest.root

theorem trees_discrete : (discrete : Forest ι).trees = ⊥ := by
  refine le_antisymm (fun i j together => ?_) bot_le
  have rootSelf (k : ι) : (discrete : Forest ι).root k = k := root_of_isRoot rfl
  have same : (discrete : Forest ι).root i = (discrete : Forest ι).root j := together
  rw [rootSelf, rootSelf] at same
  exact same

/-- The relation of one edge. -/
def edge (a b : ι) : Setoid ι :=
  Relation.EqvGen.setoid fun i j => i = a ∧ j = b

/-- One of the two roots becomes a child of the other. -/
theorem root_union (forest : Forest ι) (a b : ι) :
    ∃ child top, (child = forest.root a ∧ top = forest.root b ∨
        child = forest.root b ∧ top = forest.root a) ∧
      ∀ j, (forest.union a b).root j = if forest.root j = child then top else forest.root j := by
  have sameRoots : ((forest.find a).2.find b).2.root = forest.root := by
    rw [root_find, root_find]
  have first : (forest.find a).1 = forest.root a := find_fst forest a
  have second : ((forest.find a).2.find b).1 = forest.root b := by
    rw [find_fst, root_find]
  unfold union
  dsimp only
  split
  case isTrue same =>
    refine ⟨forest.root a, forest.root b, Or.inl ⟨rfl, rfl⟩, fun j => ?_⟩
    rw [first, second] at same
    rw [sameRoots, ← same]
    split
    case isTrue joined => exact joined
    case isFalse => rfl
  case isFalse =>
    split
    · refine ⟨forest.root a, forest.root b, Or.inl ⟨rfl, rfl⟩, fun j => ?_⟩
      rw [root_link (parent_find_fst forest a sameRoots), sameRoots, first, second]
    · refine ⟨forest.root b, forest.root a, Or.inr ⟨rfl, rfl⟩, fun j => ?_⟩
      rw [root_link (parent_find_fst _ b (root_find _ b)), sameRoots, first, second]

/-- A union joins the trees of its items and no others. -/
theorem trees_union (forest : Forest ι) (a b : ι) :
    (forest.union a b).trees = forest.trees ⊔ edge a b := by
  obtain ⟨child, top, ends, roots⟩ := root_union forest a b
  have within {i j : ι} (together : forest.root i = forest.root j) :
      (forest.trees ⊔ edge a b) i j := by
    have sameTree : forest.trees i j := together
    exact le_sup_left (a := forest.trees) (b := edge a b) sameTree
  have across : (forest.trees ⊔ edge a b) a b := by
    have joined : edge a b a b := Relation.EqvGen.rel a b ⟨rfl, rfl⟩
    exact le_sup_right (a := forest.trees) (b := edge a b) joined
  -- an item under the child is joined with an item under the top through the edge
  have joins {i j : ι} (under : forest.root i = child) (above : forest.root j = top) :
      (forest.trees ⊔ edge a b) i j := by
    rcases ends with ⟨rfl, rfl⟩ | ⟨rfl, rfl⟩
    · exact Setoid.trans' _ (within under) (Setoid.trans' _ across (within above.symm))
    · exact Setoid.trans' _ (within under)
        (Setoid.trans' _ (Setoid.symm' _ across) (within above.symm))
  apply le_antisymm
  · intro i j together
    have same : (forest.union a b).root i = (forest.union a b).root j := together
    rw [roots, roots] at same
    by_cases underI : forest.root i = child
    · by_cases underJ : forest.root j = child
      · exact within (underI.trans underJ.symm)
      · rw [if_pos underI, if_neg underJ] at same
        exact joins underI same.symm
    · by_cases underJ : forest.root j = child
      · rw [if_neg underI, if_pos underJ] at same
        exact Setoid.symm' _ (joins underJ same)
      · rw [if_neg underI, if_neg underJ] at same
        exact within same
  · apply sup_le
    · intro i j together
      have same : forest.root i = forest.root j := together
      change (forest.union a b).root i = (forest.union a b).root j
      rw [roots, roots, same]
    · apply Setoid.eqvGen_le
      rintro i j ⟨rfl, rfl⟩
      change (forest.union i j).root i = (forest.union i j).root j
      rw [roots, roots]
      rcases ends with ⟨rfl, rfl⟩ | ⟨rfl, rfl⟩
      · rw [if_pos rfl]
        split
        · rfl
        · rfl
      · rw [if_pos rfl]
        split
        case isTrue same => rfl
        case isFalse => rfl

/-- `uf_union` for every edge of a list. -/
def unionAll (forest : Forest ι) (edges : List (ι × ι)) : Forest ι :=
  edges.foldl (fun forest edge => forest.union edge.1 edge.2) forest

/-- The connected components of a list of edges. -/
def components (edges : List (ι × ι)) : Setoid ι :=
  Relation.EqvGen.setoid fun i j => (i, j) ∈ edges

theorem trees_unionAll (forest : Forest ι) (edges : List (ι × ι)) :
    (forest.unionAll edges).trees = forest.trees ⊔ components edges := by
  induction edges generalizing forest with
  | nil =>
      have none : components ([] : List (ι × ι)) = ⊥ := by
        refine le_antisymm (Setoid.eqvGen_le fun i j absent => ?_) bot_le
        cases absent
      rw [none, sup_bot_eq]
      rfl
  | cons first rest inductionHypothesis =>
      have split : components (first :: rest) = edge first.1 first.2 ⊔ components rest := by
        apply le_antisymm
        · apply Setoid.eqvGen_le
          intro i j member
          rcases List.mem_cons.mp member with same | later
          · have joined : edge first.1 first.2 i j :=
              Relation.EqvGen.rel i j (Prod.ext_iff.mp same)
            exact le_sup_left (b := components rest) joined
          · have joined : components rest i j := Relation.EqvGen.rel i j later
            exact le_sup_right (a := edge first.1 first.2) joined
        · apply sup_le
          · apply Setoid.eqvGen_mono
            rintro i j ⟨rfl, rfl⟩
            exact List.mem_cons_self
          · exact Setoid.eqvGen_mono fun i j later => List.mem_cons_of_mem first later
      have stepped := inductionHypothesis (forest.union first.1 first.2)
      rw [trees_union, sup_assoc, ← split] at stepped
      exact stepped

/-- Uniting the edges of a graph leaves one tree for each component. -/
theorem root_unionAll_eq_iff (edges : List (ι × ι)) (i j : ι) :
    (discrete.unionAll edges).root i = (discrete.unionAll edges).root j ↔
      components edges i j := by
  have trees := trees_unionAll (discrete : Forest ι) edges
  rw [trees_discrete, bot_sup_eq] at trees
  rw [← trees]
  rfl

/-! ## Finding many roots -/

/-- Find the root of one item after another. -/
def findEach (forest : Forest ι) : List ι → List ι × Forest ι
  | [] => ([], forest)
  | i :: rest =>
      let found := forest.find i
      let others := found.2.findEach rest
      (found.1 :: others.1, others.2)

/-- Earlier finds do not change what later ones find. -/
theorem findEach_eq (forest : Forest ι) (items : List ι) :
    (forest.findEach items).1 = items.map forest.root ∧
      (forest.findEach items).2.root = forest.root := by
  induction items generalizing forest with
  | nil => exact ⟨rfl, rfl⟩
  | cons i rest inductionHypothesis =>
      have later := inductionHypothesis (forest.find i).2
      rw [root_find] at later
      refine ⟨?_, later.2⟩
      rw [findEach, List.map_cons, find_fst, later.1]

/-! ## Termination -/

/-- One pass of the loop of `uf_find` over the parents and the current item. -/
def halvingPass (state : (ι → ι) × ι) : (ι → ι) × ι :=
  let parent := Function.update state.1 state.2 (state.1 (state.1 state.2))
  (parent, parent state.2)

/-- The loop of `uf_find` ends after finitely many passes, at the root, with the
parents that `find` leaves. -/
theorem halvingPass_terminates (forest : Forest ι) (i : ι) :
    ∃ passes, halvingPass^[passes] (forest.parent, i) =
        ((forest.find i).2.parent, (forest.find i).1) ∧
      (forest.find i).2.parent (forest.find i).1 = (forest.find i).1 := by
  induction forest, i using find.induct with
  | case1 forest i isRoot =>
      rw [find, if_pos isRoot]
      exact ⟨0, rfl, isRoot⟩
  | case2 forest i moved inductionHypothesis =>
      obtain ⟨passes, ended, isRoot⟩ := inductionHypothesis
      have pass : halvingPass (forest.parent, i) =
          ((forest.halve i).parent, forest.parent (forest.parent i)) := by
        simp [halvingPass, halve]
      rw [find, if_neg moved]
      refine ⟨passes + 1, ?_, isRoot⟩
      rw [Function.iterate_succ_apply, pass]
      exact ended

end Roots

end Forest

end Graph
