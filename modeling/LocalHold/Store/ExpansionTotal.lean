import LocalHold.Store.Expansion
import Mathlib.Data.Set.Card

/-!
# When a selection expands

The walks of the expansion end on every parent relation, since they stop at the
first context they meet again.  On an acyclic hierarchy they never stop that
way, and the expansion fails only for contexts that are not available and for
selections beyond the bound.
-/

namespace LocalHold

open Relational Hierarchy Transition.Checked

/-! ## Walks and their bound -/

variable {definitions : List ContextDefinition}

theorem mem_ids_of_definitionById {id : ContextId} {context : ContextDefinition}
    (found : definitionById definitions id = some context) : id ∈ definitions.map (·.id) :=
  List.mem_map.mpr ⟨context, List.mem_of_find?_eq_some found, id_of_definitionById found⟩

theorem mem_ids_of_definitionParent {id up : ContextId}
    (linked : definitionParent definitions id = some up) : id ∈ definitions.map (·.id) := by
  obtain ⟨context, found, _⟩ := Option.bind_eq_some_iff.mp linked
  exact mem_ids_of_definitionById found

/-- The contexts that a walk has met. -/
structure Visited (definitions : List ContextDefinition) (fuel : Nat)
    (visited : List ContextId) : Prop where
  nodup : visited.Nodup
  defined : ∀ id ∈ visited, id ∈ definitions.map (·.id)
  bounded : definitions.length + 1 ≤ fuel + visited.length

theorem Visited.start : Visited definitions (definitions.length + 1) [] :=
  ⟨List.nodup_nil, fun _ absent => absurd absent List.not_mem_nil, Nat.le_refl _⟩

/-- A walk of distinct defined contexts does not use up its bound. -/
theorem Visited.fuel_pos {fuel : Nat} {visited : List ContextId}
    (met : Visited definitions fuel visited) : 0 < fuel := by
  have counted := (List.subperm_of_subset met.nodup met.defined).length_le
  have bounded := met.bounded
  rw [List.length_map] at counted
  omega

theorem Visited.step {fuel : Nat} {visited : List ContextId} {id : ContextId}
    (met : Visited definitions (fuel + 1) visited) (fresh : id ∉ visited)
    (defined : id ∈ definitions.map (·.id)) : Visited definitions fuel (id :: visited) := by
  refine ⟨List.nodup_cons.mpr ⟨fresh, met.nodup⟩, List.forall_mem_cons.mpr ⟨defined, met.defined⟩, ?_⟩
  have bounded := met.bounded
  rw [List.length_cons]
  omega

/-- The ancestor walk ends by itself: a larger bound changes nothing. -/
theorem activeAncestors_of_larger_bound {direct : ContextId} {fuel : Nat} :
    ∀ {visited : List ContextId} {cursor : Option ContextId}, Visited definitions fuel visited →
      ∀ more, activeAncestors definitions direct (fuel + more) visited cursor =
        activeAncestors definitions direct fuel visited cursor := by
  induction fuel with
  | zero => exact fun met _ => absurd met.fuel_pos (Nat.lt_irrefl 0)
  | succ fuel inductionHypothesis =>
      intro visited cursor met more
      rw [Nat.succ_add]
      cases cursor with
      | none => rfl
      | some parentId =>
          simp only [activeAncestors]
          by_cases again : parentId ∈ visited
          · rw [if_pos again, if_pos again]
          · rw [if_neg again, if_neg again]
            cases found : definitionById definitions parentId with
            | none => rfl
            | some parent =>
                simp only [inductionHypothesis (met.step again (mem_ids_of_definitionById found))]

/-- The search for a direct context ends by itself. -/
theorem reachesDirect_of_larger_bound {directIds : List ContextId} {fuel : Nat} :
    ∀ {visited : List ContextId} {cursor : Option ContextId}, Visited definitions fuel visited →
      ∀ more, reachesDirect definitions directIds (fuel + more) visited cursor =
        reachesDirect definitions directIds fuel visited cursor := by
  induction fuel with
  | zero => exact fun met _ => absurd met.fuel_pos (Nat.lt_irrefl 0)
  | succ fuel inductionHypothesis =>
      intro visited cursor met more
      rw [Nat.succ_add]
      cases cursor with
      | none => rfl
      | some parentId =>
          simp only [reachesDirect]
          by_cases again : parentId ∈ visited
          · rw [if_pos again, if_pos again]
          · rw [if_neg again, if_neg again]
            by_cases direct : parentId ∈ directIds
            · rw [if_pos direct, if_pos direct]
            · rw [if_neg direct, if_neg direct]
              cases linked : definitionParent definitions parentId with
              | none => cases fuel <;> cases more <;> rfl
              | some up =>
                  exact inductionHypothesis (met.step again (mem_ids_of_definitionParent linked))
                    more

/-! ## Walks on acyclic hierarchies -/

/-- Every context met lies below the cursor. -/
def BelowCursor (definitions : List ContextDefinition) (visited : List ContextId)
    (cursor : Option ContextId) : Prop :=
  ∀ id ∈ visited, ∀ node, cursor = some node → Above (definitionParent definitions) node id

theorem BelowCursor.not_mem (acyclic : Acyclic (definitionParent definitions))
    {visited : List ContextId} {node : ContextId}
    (below : BelowCursor definitions visited (some node)) : node ∉ visited :=
  fun again => acyclic node (below node again node rfl)

theorem BelowCursor.step {visited : List ContextId} {node : ContextId}
    (below : BelowCursor definitions visited (some node)) :
    BelowCursor definitions (node :: visited) (definitionParent definitions node) := by
  intro id member up linked
  rcases List.mem_cons.mp member with rfl | earlier
  · exact Above.of_parent linked
  · exact (Above.of_parent linked).trans (below id earlier node rfl)

/-- On an acyclic hierarchy whose chain is defined, the ancestor walk succeeds. -/
theorem exists_activeAncestors_ok (acyclic : Acyclic (definitionParent definitions))
    {direct : ContextId} {fuel : Nat} :
    ∀ {visited : List ContextId} {cursor : Option ContextId}, Visited definitions fuel visited →
      BelowCursor definitions visited cursor →
      (∀ id, OnChain definitions cursor id → ∃ context, definitionById definitions id = some context) →
      ∃ above, activeAncestors definitions direct fuel visited cursor = .ok above := by
  induction fuel with
  | zero => exact fun met => absurd met.fuel_pos (Nat.lt_irrefl 0)
  | succ fuel inductionHypothesis =>
      intro visited cursor met below defined
      cases cursor with
      | none => exact ⟨[], rfl⟩
      | some node =>
          have fresh := below.not_mem acyclic
          obtain ⟨parent, found⟩ := defined node (onChain_some_iff.mpr (Or.inl rfl))
          have linked := definitionParent_of_definitionById found
          obtain ⟨above, aboveRan⟩ := inductionHypothesis
            (met.step fresh (mem_ids_of_definitionById found)) below.step
            (fun id onChain => defined id (onChain_some_iff.mpr (Or.inr onChain)))
          rw [linked] at aboveRan
          rw [activeAncestors, if_neg fresh, found]
          exact ⟨_, bind_eq_ok.mpr ⟨above, aboveRan, rfl⟩⟩

/-- On an acyclic hierarchy the search for a direct context succeeds. -/
theorem exists_reachesDirect_ok (acyclic : Acyclic (definitionParent definitions))
    {directIds : List ContextId} {fuel : Nat} :
    ∀ {visited : List ContextId} {cursor : Option ContextId}, Visited definitions fuel visited →
      BelowCursor definitions visited cursor →
      ∃ found, reachesDirect definitions directIds fuel visited cursor = .ok found := by
  induction fuel with
  | zero => exact fun met => absurd met.fuel_pos (Nat.lt_irrefl 0)
  | succ fuel inductionHypothesis =>
      intro visited cursor met below
      cases cursor with
      | none => exact ⟨false, rfl⟩
      | some node =>
          have fresh := below.not_mem acyclic
          rw [reachesDirect, if_neg fresh]
          by_cases direct : node ∈ directIds
          · exact ⟨true, if_pos direct⟩
          · rw [if_neg direct]
            cases linked : definitionParent definitions node with
            | none => exact ⟨false, by cases fuel <;> rfl⟩
            | some up =>
                have next := below.step
                rw [linked] at next
                exact inductionHypothesis (met.step fresh (mem_ids_of_definitionParent linked)) next

/-! ## Available selections -/

variable {db : Db} {principal : String} {directIds : List ContextId} {flag : Bool}

/-- The principal can see the direct contexts and everything above them, and
none of the direct contexts is archived. -/
structure Db.Available (db : Db) (principal : String) (directIds : List ContextId) : Prop where
  visible : ∀ direct ∈ directIds, db.VisibleId principal direct
  active : ∀ direct ∈ directIds, db.isActive direct = true
  ancestors : ∀ direct ∈ directIds, ∀ ancestor, db.StoredAbove ancestor direct →
    db.VisibleId principal ancestor

theorem Db.requireSelectable_of_available {id : ContextId}
    (visible : db.VisibleId principal id) (active : db.isActive id = true) :
    db.requireSelectable principal id = .ok () := by
  obtain ⟨row, found, rowVisible⟩ := visible
  obtain ⟨activeRow, activeFound, lifecycle⟩ := Db.isActive_iff.mp active
  rw [found] at activeFound
  cases activeFound
  rw [Db.requireSelectable, Db.fetchContextAuthorized, found, Option.map_some, Option.filter_some,
    if_pos rowVisible]
  exact ensure_eq_ok.mpr (by simp [lifecycle])

/-- The rows of the effective query are the selected contexts, those above them
and, on request, those below. -/
theorem Db.position_of_mem_effectiveIds {id : ContextId}
    (member : id ∈ db.effectiveIds directIds principal flag) :
    id ∈ directIds ∨ (∃ direct ∈ directIds, db.StoredAbove id direct) ∨
      (flag = true ∧ ∃ direct ∈ directIds, db.VisiblyBelow principal direct id) := by
  obtain ⟨source, sourceMem, upwards⟩ := mem_recursiveUnion_iff.mp member
  obtain ⟨direct, directMem, downwards⟩ := mem_recursiveUnion_iff.mp sourceMem
  have above : source = id ∨ db.StoredAbove id source := by
    rcases Relation.reflTransGen_iff_eq_or_transGen.mp upwards with rfl | path
    · exact Or.inl rfl
    · exact Or.inr (Relation.TransGen.mono
        (fun _ _ reached => (Db.visibleParent_iff.mp reached.2).1) _ _ path)
  rcases Relation.reflTransGen_iff_eq_or_transGen.mp downwards with rfl | path
  · rcases above with rfl | higher
    · exact Or.inl directMem
    · exact Or.inr (Or.inl ⟨_, directMem, higher⟩)
  · have flagged : flag = true := by
      obtain ⟨_, _, reached⟩ := Relation.TransGen.tail'_iff.mp path
      exact (Bool.and_eq_true _ _ ▸ reached.2).1
    have below : db.VisiblyBelow principal direct source := by
      refine Relation.TransGen.mono (fun parent child reached => ?_) _ _ path
      have linked := reached.2
      rw [Bool.and_eq_true] at linked
      exact linked.2
    rcases above with rfl | higher
    · exact Or.inr (Or.inr ⟨flagged, direct, directMem, below⟩)
    · rcases below.above_cases higher with rfl | further | between
      · exact Or.inl directMem
      · exact Or.inr (Or.inl ⟨direct, directMem, further⟩)
      · exact Or.inr (Or.inr ⟨flagged, direct, directMem, between⟩)

theorem Db.Available.mem_effectiveIds_of_above (available : db.Available principal directIds)
    {direct id : ContextId} (directMem : direct ∈ directIds) (above : db.StoredAbove id direct) :
    id ∈ db.effectiveIds directIds principal flag := by
  apply mem_recursiveUnion_iff.mpr
  refine ⟨direct, mem_recursiveUnion_iff.mpr ⟨direct, directMem, Relation.ReflTransGen.refl⟩, ?_⟩
  induction above with
  | single linked =>
      have visible := available.ancestors direct directMem _ (Above.of_parent linked)
      exact Relation.ReflTransGen.single
        ⟨visible.mem_contextIds, Db.visibleParent_iff.mpr ⟨linked, visible⟩⟩
  | tail path linked inductionHypothesis =>
      have visible := available.ancestors direct directMem _
        ((Above.of_parent linked).trans path)
      exact inductionHypothesis.tail
        ⟨visible.mem_contextIds, Db.visibleParent_iff.mpr ⟨linked, visible⟩⟩

/-- The active rows of the effective query are the selected and inherited
contexts. -/
theorem Db.Available.mem_active_iff (available : db.Available principal directIds)
    {id : ContextId} :
    id ∈ (db.effectiveIds directIds principal flag).filter db.isActive ↔
      db.SelectedOrInherited principal directIds flag id := by
  rw [List.mem_filter]
  constructor
  · rintro ⟨member, active⟩
    exact ⟨active, Db.position_of_mem_effectiveIds member⟩
  · rintro ⟨active, direct | ⟨direct, directMem, above⟩ | ⟨rfl, direct, directMem, below⟩⟩
    · exact ⟨Db.mem_effectiveIds_of_direct direct, active⟩
    · exact ⟨available.mem_effectiveIds_of_above directMem above, active⟩
    · exact ⟨Db.mem_effectiveIds_of_visiblyBelow directMem below, active⟩

/-- The number of contexts that a selection stands for. -/
noncomputable def Db.selectionSize (db : Db) (principal : String) (directIds : List ContextId)
    (flag : Bool) : Nat :=
  {id | db.SelectedOrInherited principal directIds flag id}.ncard

theorem Db.Available.selectionSize_eq (available : db.Available principal directIds) :
    db.selectionSize principal directIds flag =
      ((db.effectiveIds directIds principal flag).filter db.isActive).length := by
  have same : {id | db.SelectedOrInherited principal directIds flag id} =
      (((db.effectiveIds directIds principal flag).filter db.isActive).toFinset : Set ContextId) := by
    ext id
    rw [Set.mem_ofPred_eq, List.coe_toFinset, Set.mem_ofPred_eq, available.mem_active_iff]
  rw [Db.selectionSize, same, Set.ncard_coe_finset,
    List.toFinset_card_of_nodup (Db.nodup_effectiveIds.filter _)]

theorem Db.mem_effectiveIds_of_selected {id : ContextId}
    (selected : id ∈ db.selectedEffectiveIds directIds principal flag) :
    id ∈ db.effectiveIds directIds principal flag := by
  obtain ⟨source, sourceMem, path⟩ := mem_recursiveUnion_iff.mp selected
  have sourceSelected := (List.mem_filter.mp (List.mem_of_mem_take sourceMem)).1
  obtain ⟨first, firstMem, earlier⟩ := mem_recursiveUnion_iff.mp sourceSelected
  exact mem_recursiveUnion_iff.mpr ⟨first, firstMem, earlier.trans path⟩

/-- The bound is checked on exactly the active rows of the effective query. -/
theorem Db.activeDefinitions_le_iff :
    (activeDefinitions (db.expansionDefinitions directIds principal flag)).length ≤
        maxEffectiveContexts ↔
      ((db.effectiveIds directIds principal flag).filter db.isActive).length ≤
        maxEffectiveContexts := by
  have stored : ∀ id, db.isActive id = true →
      id ∈ db.selectedEffectiveIds directIds principal flag →
      id ∈ (activeDefinitions (db.expansionDefinitions directIds principal flag)).map (·.id) := by
    intro id active selected
    obtain ⟨row, found, lifecycle⟩ := Db.isActive_iff.mp active
    obtain ⟨rowMem, rfl⟩ := Table.find?_eq_some_iff.mp found
    refine List.mem_map.mpr ⟨row.context, List.mem_filter.mpr ⟨?_, by simpa using lifecycle⟩, rfl⟩
    exact Db.mem_expansionDefinitions_iff.mpr ⟨⟨row, rowMem, rfl⟩, selected⟩
  constructor
  · intro bounded
    have listed : ((db.effectiveIds directIds principal flag).filter db.isActive).Subperm
        ((activeDefinitions (db.expansionDefinitions directIds principal flag)).map (·.id)) := by
      apply List.subperm_of_subset (Db.nodup_effectiveIds.filter _)
      intro id member
      obtain ⟨effective, active⟩ := List.mem_filter.mp member
      exact stored id active (Db.mem_selectedEffectiveIds_of_active bounded effective active)
    have counted := listed.length_le
    rw [List.length_map] at counted
    omega
  · intro bounded
    have listed : ((activeDefinitions
        (db.expansionDefinitions directIds principal flag)).map (·.id)).Subperm
        ((db.effectiveIds directIds principal flag).filter db.isActive) := by
      apply List.subperm_of_subset
      · exact Db.nodup_expansionDefinitions.sublist (List.filter_sublist.map _)
      · intro id member
        obtain ⟨context, contextMem, rfl⟩ := List.mem_map.mp member
        obtain ⟨defined, active⟩ := List.mem_filter.mp contextMem
        obtain ⟨⟨row, rowMem, rfl⟩, selected⟩ := Db.mem_expansionDefinitions_iff.mp defined
        refine List.mem_filter.mpr ⟨Db.mem_effectiveIds_of_selected selected, ?_⟩
        exact Db.isActive_iff.mpr
          ⟨row, Table.find?_eq_some_iff.mpr ⟨rowMem, rfl⟩, by simpa using active⟩
    have counted := listed.length_le
    rw [List.length_map] at counted
    omega

/-! ## Success and failure -/

theorem Db.acyclic_definitionParent (acyclic : Acyclic db.contextParent) :
    Acyclic (definitionParent (db.expansionDefinitions directIds principal flag)) :=
  acyclic.mono fun _ _ linked => (Db.definitionParent_eq_some_iff.mp linked).2

/-- The chain above an available direct context succeeds. -/
theorem Db.Available.exists_directWithAncestors_ok (available : db.Available principal directIds)
    (acyclic : Acyclic db.contextParent)
    (bounded : (activeDefinitions (db.expansionDefinitions directIds principal flag)).length ≤
      maxEffectiveContexts) {direct : ContextId} (directMem : direct ∈ directIds) :
    ∃ chain, directWithAncestors (db.expansionDefinitions directIds principal flag) direct =
      .ok chain := by
  have active := available.active direct directMem
  have selected := Db.mem_selectedEffectiveIds_of_active bounded
    (Db.mem_effectiveIds_of_direct directMem) active
  obtain ⟨row, stored, lifecycle⟩ := Db.isActive_iff.mp active
  have found : definitionById (db.expansionDefinitions directIds principal flag) direct =
      some row.context :=
    Db.definitionById_eq_some_iff.mpr ⟨selected, by rw [stored, Option.map_some]⟩
  have linked := definitionParent_of_definitionById found
  have defined : ∀ id, OnChain (db.expansionDefinitions directIds principal flag)
      row.context.parentId id → ∃ context,
        definitionById (db.expansionDefinitions directIds principal flag) id = some context := by
    intro id onChain
    rw [← linked, onChain_definitionParent_iff] at onChain
    have visible := available.ancestors direct directMem id
      (Db.storedAbove_of_definitionParent onChain)
    obtain ⟨child, _, last⟩ := Relation.TransGen.tail'_iff.mp onChain
    obtain ⟨childSelected, childLinked⟩ := Db.definitionParent_eq_some_iff.mp last
    have selectedUp := Db.mem_selectedEffectiveIds_of_parent childSelected childLinked visible
    obtain ⟨up, upStored, _⟩ := visible
    exact ⟨up.context, Db.definitionById_eq_some_iff.mpr
      ⟨selectedUp, by rw [upStored, Option.map_some]⟩⟩
  obtain ⟨above, aboveRan⟩ := exists_activeAncestors_ok (Db.acyclic_definitionParent acyclic)
    Visited.start (fun _ absent => absurd absent List.not_mem_nil) defined
  rw [directWithAncestors, found]
  exact ⟨_, bind_eq_ok.mpr ⟨(), ensure_eq_ok.mpr (by simp [lifecycle]),
    bind_eq_ok.mpr ⟨above, aboveRan, rfl⟩⟩⟩

theorem Db.exists_requestedDescendants_ok (acyclic : Acyclic db.contextParent) :
    ∃ below, requestedDescendants (db.expansionDefinitions directIds principal flag) directIds
      flag = .ok below := by
  rw [requestedDescendants]
  split
  · apply exists_filterMapM_ok
    intro candidate _
    obtain ⟨found, foundRan⟩ := exists_reachesDirect_ok (Db.acyclic_definitionParent acyclic)
      Visited.start (fun _ absent => absurd absent List.not_mem_nil)
    exact ⟨_, bind_eq_ok.mpr ⟨found, foundRan, rfl⟩⟩
  · exact ⟨[], rfl⟩

/-- An available selection within the bound expands. -/
theorem Db.Available.exists_expansion (available : db.Available principal directIds)
    (acyclic : Acyclic db.contextParent)
    (small : db.selectionSize principal directIds flag ≤ maxEffectiveContexts) :
    ∃ effective, db.expandContextSelection directIds principal flag = .ok effective := by
  rw [available.selectionSize_eq, ← Db.activeDefinitions_le_iff] at small
  obtain ⟨checks, checked⟩ := exists_mapM_ok fun direct directMem =>
    ⟨(), Db.requireSelectable_of_available (available.visible direct directMem)
      (available.active direct directMem)⟩
  obtain ⟨chains, chainsRan⟩ := exists_mapM_ok fun direct directMem =>
    available.exists_directWithAncestors_ok acyclic small directMem
  obtain ⟨below, belowRan⟩ := Db.exists_requestedDescendants_ok acyclic
  rw [Db.expandContextSelection, expandContextDefinitions]
  exact ⟨_, bind_eq_ok.mpr ⟨checks, checked, bind_eq_ok.mpr ⟨(),
    ensure_eq_ok.mpr (by simpa using small), bind_eq_ok.mpr ⟨chains, chainsRan,
      bind_eq_ok.mpr ⟨below, belowRan, rfl⟩⟩⟩⟩⟩

/-- Everything above a direct context whose chain succeeded is selected. -/
theorem Db.mem_selected_of_directWithAncestors {direct ancestor : ContextId}
    {chain : List ContextDefinition}
    (ran : directWithAncestors (db.expansionDefinitions directIds principal flag) direct =
      .ok chain) (above : db.StoredAbove ancestor direct) :
    ancestor ∈ db.selectedEffectiveIds directIds principal flag := by
  rw [directWithAncestors] at ran
  cases found : definitionById (db.expansionDefinitions directIds principal flag) direct with
  | none =>
      rw [found] at ran
      cases ran
  | some definition =>
      rw [found] at ran
      obtain ⟨_, ran⟩ := of_ensure_bind ran
      obtain ⟨_, aboveRan, _⟩ := bind_eq_ok.mp ran
      rw [← definitionParent_of_definitionById found] at aboveRan
      have defined : ∀ id, Above
          (definitionParent (db.expansionDefinitions directIds principal flag)) id direct →
          id ∈ db.selectedEffectiveIds directIds principal flag := by
        intro id higher
        obtain ⟨_, idFound⟩ :=
          (activeAncestors_ok aboveRan).1 id (onChain_definitionParent_iff.mpr higher)
        exact (Db.definitionById_eq_some_iff.mp idFound).1
      exact defined ancestor ((Db.storedAbove_iff_of_defined
        (Db.definitionById_eq_some_iff.mp found).1 defined).mp above)

/-- A selection that expands is available and within the bound. -/
theorem Db.available_of_expansion {effective : List ContextDefinition}
    (ran : db.expandContextSelection directIds principal flag = .ok effective) :
    db.Available principal directIds ∧
      db.selectionSize principal directIds flag ≤ maxEffectiveContexts := by
  rw [Db.expandContextSelection] at ran
  obtain ⟨_, checked, ran⟩ := bind_eq_ok.mp ran
  have selectable : ∀ direct ∈ directIds,
      db.VisibleId principal direct ∧ db.isActive direct = true := by
    intro direct directMem
    obtain ⟨_, _, checkRan⟩ := mapM_ok_forall checked direct directMem
    exact Db.requireSelectable_ok checkRan
  have visible : db.AllVisible principal directIds :=
    fun direct directMem => (selectable direct directMem).1
  rw [expandContextDefinitions] at ran
  obtain ⟨bounded, ran⟩ := of_ensure_bind ran
  rw [decide_eq_true_eq] at bounded
  obtain ⟨chains, chainsRan, _⟩ := bind_eq_ok.mp ran
  have available : db.Available principal directIds := by
    refine ⟨visible, fun direct directMem => (selectable direct directMem).2, ?_⟩
    intro direct directMem ancestor above
    obtain ⟨chain, _, chainRan⟩ := mapM_ok_forall chainsRan direct directMem
    exact visible.selectedEffectiveIds ancestor
      (Db.mem_selected_of_directWithAncestors chainRan above)
  refine ⟨available, ?_⟩
  rw [available.selectionSize_eq, ← Db.activeDefinitions_le_iff]
  exact bounded

/-- A successful expansion returns each selected or inherited context once; on
an acyclic hierarchy it fails exactly for a direct context that is archived or
not visible, a hidden ancestor of one, or a selection beyond the bound; and both
walks end by themselves on every parent relation. -/
theorem selection_expansion (db : Db) (principal : String) (directIds : List ContextId)
    (flag : Bool) :
    (∀ effective, db.expandContextSelection directIds principal flag = .ok effective →
      Expansion db principal directIds flag effective) ∧
    (Acyclic db.contextParent →
      ((∃ error, db.expandContextSelection directIds principal flag = .error error) ↔
        (∃ direct ∈ directIds, db.isActive direct = false ∨ ¬db.VisibleId principal direct) ∨
        (∃ direct ∈ directIds, ∃ ancestor, db.StoredAbove ancestor direct ∧
          ¬db.VisibleId principal ancestor) ∨
        maxEffectiveContexts < db.selectionSize principal directIds flag)) ∧
    ∀ (definitions : List ContextDefinition) (direct : ContextId) (cursor : Option ContextId)
      (more : Nat),
      activeAncestors definitions direct (definitions.length + 1 + more) [] cursor =
        activeAncestors definitions direct (definitions.length + 1) [] cursor ∧
      reachesDirect definitions directIds (definitions.length + 1 + more) [] cursor =
        reachesDirect definitions directIds (definitions.length + 1) [] cursor := by
  refine ⟨fun _ ran => Db.expandContextSelection_ok ran, fun acyclic => ?_, ?_⟩
  · constructor
    · rintro ⟨error, failed⟩
      by_contra fine
      have available : db.Available principal directIds := by
        refine ⟨fun direct directMem => ?_, fun direct directMem => ?_,
          fun direct directMem ancestor above => ?_⟩
        · by_contra hidden
          exact fine (Or.inl ⟨direct, directMem, Or.inr hidden⟩)
        · by_contra archived
          exact fine (Or.inl ⟨direct, directMem, Or.inl (by simpa using archived)⟩)
        · by_contra hidden
          exact fine (Or.inr (Or.inl ⟨direct, directMem, ancestor, above, hidden⟩))
      have small : db.selectionSize principal directIds flag ≤ maxEffectiveContexts := by
        by_contra large
        exact fine (Or.inr (Or.inr (by omega)))
      obtain ⟨effective, ran⟩ := available.exists_expansion acyclic small
      rw [failed] at ran
      cases ran
    · intro refused
      cases ran : db.expandContextSelection directIds principal flag with
      | error error => exact ⟨error, rfl⟩
      | ok effective =>
          obtain ⟨available, small⟩ := Db.available_of_expansion ran
          rcases refused with ⟨direct, directMem, archived | hidden⟩ |
            ⟨direct, directMem, ancestor, above, hidden⟩ | large
          · rw [available.active direct directMem] at archived
            cases archived
          · exact absurd (available.visible direct directMem) hidden
          · exact absurd (available.ancestors direct directMem ancestor above) hidden
          · omega
  · intro definitions direct cursor more
    exact ⟨activeAncestors_of_larger_bound Visited.start more,
      reachesDirect_of_larger_bound Visited.start more⟩

/-- A context of one owner below a context of another one. -/
def hiddenParentStore : Db :=
  { Db.empty 3 with
    contexts := (Table.empty.upsert
      ⟨⟨⟨1⟩, ContextKind.project, "task", "Task", none, "owner", none, some ⟨2⟩, .active, false, 0, 0⟩,
        "task"⟩).upsert
      ⟨⟨⟨2⟩, ContextKind.project, "group", "Group", none, "other", none, none, .active, false, 0, 0⟩,
        "group"⟩ }

theorem acyclic_hiddenParentStore : Acyclic hiddenParentStore.contextParent := by
  have only : ∀ id up, hiddenParentStore.contextParent id = some up → id = ⟨1⟩ ∧ up = ⟨2⟩ := by
    intro id up linked
    obtain ⟨row, found, parent⟩ := Option.bind_eq_some_iff.mp linked
    obtain ⟨rowMem, rfl⟩ := Table.find?_eq_some_iff.mp found
    have rows : ∀ row ∈ hiddenParentStore.contexts.rows,
        row.context.parentId = none ∨ (row.context.id = ⟨1⟩ ∧ row.context.parentId = some ⟨2⟩) := by
      decide
    rcases rows row rowMem with root | ⟨child, stated⟩
    · rw [root] at parent
      cases parent
    · rw [stated] at parent
      exact ⟨child, (Option.some.inj parent).symm⟩
  intro node above
  obtain ⟨_, first, _⟩ := Relation.TransGen.head'_iff.mp above
  obtain ⟨_, _, last⟩ := Relation.TransGen.tail'_iff.mp above
  have start := (only _ _ first).1
  have stop := (only _ _ last).2
  rw [start] at stop
  exact absurd stop (by decide)

theorem selection_expansion_hidden_parent :
    Acyclic hiddenParentStore.contextParent ∧
      ∃ error, hiddenParentStore.expandContextSelection [⟨1⟩] "owner" false = .error error := by
  refine ⟨acyclic_hiddenParentStore, ((selection_expansion hiddenParentStore "owner" [⟨1⟩] false).2.1
    acyclic_hiddenParentStore).mpr (Or.inr (Or.inl ?_))⟩
  refine ⟨⟨1⟩, List.mem_singleton.mpr rfl, ⟨2⟩, Above.of_parent rfl, ?_⟩
  rintro ⟨row, found, visible⟩
  obtain ⟨rowMem, sameId⟩ := Table.find?_eq_some_iff.mp found
  have hidden : ∀ row ∈ hiddenParentStore.contexts.rows, row.context.id = ⟨2⟩ →
      hiddenParentStore.contextVisible row.context "owner" = false := by decide
  rw [hidden row rowMem sameId] at visible
  cases visible

end LocalHold
