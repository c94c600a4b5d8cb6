import LocalHold.Store.ContextQuery
import LocalHold.Hierarchy.Ancestry

/-!
# What a selection expands to

A successful expansion returns exactly the active contexts that are selected,
that lie above a selected context in the stored hierarchy, or, on request, that
are reached downwards from one through contexts the principal can see.  Archived
contexts are passed in both directions and never returned.
-/

namespace LocalHold

open Relational Hierarchy Transition.Checked

/-- A stored context lies above another. -/
def Db.StoredAbove (db : Db) (ancestor node : ContextId) : Prop :=
  Above db.contextParent ancestor node

/-- A context is reached downwards through visible children. -/
def Db.VisiblyBelow (db : Db) (principal : String) (top node : ContextId) : Prop :=
  Relation.TransGen (fun parent child => db.visibleChild principal parent child = true) top node

/-- The active contexts that a selection stands for. -/
def Db.SelectedOrInherited (db : Db) (principal : String) (directIds : List ContextId)
    (includeDescendants : Bool) (id : ContextId) : Prop :=
  db.isActive id = true ∧
    (id ∈ directIds ∨ (∃ direct ∈ directIds, db.StoredAbove id direct) ∨
      (includeDescendants = true ∧ ∃ direct ∈ directIds, db.VisiblyBelow principal direct id))

/-- A stored context that the principal can see. -/
def Db.VisibleId (db : Db) (principal : String) (id : ContextId) : Prop :=
  ∃ row, db.contexts.find? id = some row ∧ db.contextVisible row.context principal = true

variable {db : Db} {principal : String} {directIds : List ContextId} {flag : Bool}

/-! ## Stored links -/

theorem Db.mem_contextIds_iff {id : ContextId} :
    id ∈ db.contextIds ↔ ∃ row, db.contexts.find? id = some row := by
  simp only [Db.contextIds, List.mem_map, Table.find?_eq_some_iff, Table.mem_def]

theorem Db.nodup_contextIds (db : Db) : db.contextIds.Nodup :=
  db.contexts.nodup

theorem Db.visibleChild_iff {parent child : ContextId} :
    db.visibleChild principal parent child = true ↔
      db.contextParent child = some parent ∧ db.VisibleId principal child := by
  simp only [Db.visibleChild, Db.contextParent, Db.VisibleId]
  cases db.contexts.find? child with
  | none => simp
  | some row => simp

theorem Db.visibleParent_iff {child parent : ContextId} :
    db.visibleParent principal child parent = true ↔
      db.contextParent child = some parent ∧ db.VisibleId principal parent := by
  simp only [Db.visibleParent, Db.VisibleId, Bool.and_eq_true, beq_iff_eq]
  cases db.contexts.find? parent with
  | none => simp
  | some row => simp

theorem Db.VisibleId.mem_contextIds {id : ContextId} (visible : db.VisibleId principal id) :
    id ∈ db.contextIds := by
  obtain ⟨row, found, _⟩ := visible
  exact Db.mem_contextIds_iff.mpr ⟨row, found⟩

/-- Reaching downwards follows stored parents backwards. -/
theorem Db.VisiblyBelow.storedAbove {top node : ContextId}
    (below : db.VisiblyBelow principal top node) : db.StoredAbove top node := by
  induction below with
  | single linked => exact Above.of_parent (Db.visibleChild_iff.mp linked).1
  | tail _ linked inductionHypothesis =>
      exact Above.trans inductionHypothesis (Above.of_parent (Db.visibleChild_iff.mp linked).1)

/-- Whatever lies above a descendant of a direct context is between the two, is
the direct context, or lies above it. -/
theorem Db.VisiblyBelow.above_cases {direct node ancestor : ContextId}
    (below : db.VisiblyBelow principal direct node) (above : db.StoredAbove ancestor node) :
    ancestor = direct ∨ db.StoredAbove ancestor direct ∨
      db.VisiblyBelow principal direct ancestor := by
  induction below with
  | single linked =>
      rcases (above_iff_of_parent (Db.visibleChild_iff.mp linked).1).mp above with rfl | higher
      · exact Or.inl rfl
      · exact Or.inr (Or.inl higher)
  | tail path linked inductionHypothesis =>
      rcases (above_iff_of_parent (Db.visibleChild_iff.mp linked).1).mp above with rfl | higher
      · exact Or.inr (Or.inr path)
      · exact inductionHypothesis higher

/-- The active contexts above a selected or inherited one are inherited too. -/
theorem Db.SelectedOrInherited.of_above {id ancestor : ContextId}
    (selected : db.SelectedOrInherited principal directIds flag id)
    (above : db.StoredAbove ancestor id) (active : db.isActive ancestor = true) :
    db.SelectedOrInherited principal directIds flag ancestor := by
  refine ⟨active, ?_⟩
  rcases selected.2 with direct | ⟨direct, directMem, between⟩ | ⟨flagged, direct, directMem, below⟩
  · exact Or.inr (Or.inl ⟨id, direct, above⟩)
  · exact Or.inr (Or.inl ⟨direct, directMem, Above.trans above between⟩)
  · rcases below.above_cases above with rfl | higher | lower
    · exact Or.inl directMem
    · exact Or.inr (Or.inl ⟨direct, directMem, higher⟩)
    · exact Or.inr (Or.inr ⟨flagged, direct, directMem, lower⟩)

/-! ## The recursive queries -/

/-- Every selected context is visible. -/
def Db.AllVisible (db : Db) (principal : String) (ids : List ContextId) : Prop :=
  ∀ id ∈ ids, db.VisibleId principal id

/-- A query that only adds visible contexts keeps a selection visible. -/
theorem Db.AllVisible.recursiveUnion {start : List ContextId}
    {edge : ContextId → ContextId → Bool} (visible : db.AllVisible principal start)
    (edgeVisible : ∀ source target, edge source target = true → db.VisibleId principal target) :
    db.AllVisible principal (recursiveUnion db.contextIds edge start) := by
  intro id member
  obtain ⟨source, sourceMem, path⟩ := mem_recursiveUnion_iff.mp member
  rcases Relation.ReflTransGen.cases_tail path with rfl | ⟨before, _, reached⟩
  · exact visible _ sourceMem
  · exact edgeVisible before id reached.2

theorem Db.AllVisible.effectiveIds (visible : db.AllVisible principal directIds) :
    db.AllVisible principal (db.effectiveIds directIds principal flag) := by
  apply Db.AllVisible.recursiveUnion
  · apply visible.recursiveUnion
    intro parent child linked
    rw [Bool.and_eq_true] at linked
    exact (Db.visibleChild_iff.mp linked.2).2
  · intro child parent linked
    exact (Db.visibleParent_iff.mp linked).2

theorem Db.AllVisible.selectedEffectiveIds (visible : db.AllVisible principal directIds) :
    db.AllVisible principal (db.selectedEffectiveIds directIds principal flag) := by
  apply Db.AllVisible.recursiveUnion
  · intro id member
    exact visible.effectiveIds id (List.mem_filter.mp (List.mem_of_mem_take member)).1
  · intro child parent linked
    exact (Db.visibleParent_iff.mp linked).2

theorem Db.mem_effectiveIds_of_direct {id : ContextId} (member : id ∈ directIds) :
    id ∈ db.effectiveIds directIds principal flag := by
  apply mem_recursiveUnion_iff.mpr
  refine ⟨id, ?_, Relation.ReflTransGen.refl⟩
  exact mem_recursiveUnion_iff.mpr ⟨id, member, Relation.ReflTransGen.refl⟩

theorem Db.mem_effectiveIds_of_visiblyBelow {direct id : ContextId} (member : direct ∈ directIds)
    (below : db.VisiblyBelow principal direct id) :
    id ∈ db.effectiveIds directIds principal true := by
  apply mem_recursiveUnion_iff.mpr
  refine ⟨id, ?_, Relation.ReflTransGen.refl⟩
  apply mem_recursiveUnion_iff.mpr
  refine ⟨direct, member,
    Relation.TransGen.to_reflTransGen (Relation.TransGen.mono ?_ direct id below)⟩
  intro parent child linked
  exact ⟨(Db.visibleChild_iff.mp linked).2.mem_contextIds, by simpa using linked⟩

theorem Db.nodup_effectiveIds :
    (db.effectiveIds directIds principal flag).Nodup :=
  nodup_recursiveUnion db.nodup_contextIds

/-- The selection is closed under visible parents. -/
theorem Db.mem_selectedEffectiveIds_of_parent {child parent : ContextId}
    (member : child ∈ db.selectedEffectiveIds directIds principal flag)
    (linked : db.contextParent child = some parent) (visible : db.VisibleId principal parent) :
    parent ∈ db.selectedEffectiveIds directIds principal flag := by
  obtain ⟨source, sourceMem, path⟩ := mem_recursiveUnion_iff.mp member
  apply mem_recursiveUnion_iff.mpr
  exact ⟨source, sourceMem, path.tail
    ⟨visible.mem_contextIds, Db.visibleParent_iff.mpr ⟨linked, visible⟩⟩⟩

/-! ## The selected definitions -/

theorem Db.mem_expansionDefinitions_iff {context : ContextDefinition} :
    context ∈ db.expansionDefinitions directIds principal flag ↔
      (∃ row ∈ db.contexts, row.context = context) ∧
        context.id ∈ db.selectedEffectiveIds directIds principal flag := by
  simp only [Db.expansionDefinitions, List.mem_map, mem_orderBy, Table.mem_select_iff,
    decide_eq_true_eq]
  constructor
  · rintro ⟨row, ⟨rowMem, selected⟩, rfl⟩
    exact ⟨⟨row, rowMem, rfl⟩, selected⟩
  · rintro ⟨⟨row, rowMem, rfl⟩, selected⟩
    exact ⟨row, ⟨rowMem, selected⟩, rfl⟩

theorem Db.nodup_expansionDefinitions :
    ((db.expansionDefinitions directIds principal flag).map (·.id)).Nodup := by
  simp only [Db.expansionDefinitions, List.map_map]
  apply ((perm_orderBy contextRowBefore _).map _).nodup_iff.mpr
  exact db.contexts.nodup.sublist (List.filter_sublist.map _)

/-- The selected definitions as a table. -/
def Db.expansionTable (db : Db) (directIds : List ContextId) (principal : String)
    (flag : Bool) : Table ContextDefinition.id :=
  ⟨db.expansionDefinitions directIds principal flag, Db.nodup_expansionDefinitions⟩

/-- The lookup among the selected definitions is the stored one, restricted. -/
theorem Db.definitionById_eq_some_iff {id : ContextId} {context : ContextDefinition} :
    definitionById (db.expansionDefinitions directIds principal flag) id = some context ↔
      id ∈ db.selectedEffectiveIds directIds principal flag ∧
        (db.contexts.find? id).map (·.context) = some context := by
  have looked : (db.expansionTable directIds principal flag).find? id = some context ↔ _ :=
    Table.find?_eq_some_iff
  rw [show definitionById (db.expansionDefinitions directIds principal flag) id =
    (db.expansionTable directIds principal flag).find? id from rfl, looked,
    Table.mem_def, show (db.expansionTable directIds principal flag).rows =
      db.expansionDefinitions directIds principal flag from rfl,
    Db.mem_expansionDefinitions_iff, Option.map_eq_some_iff]
  constructor
  · rintro ⟨⟨⟨row, rowMem, rfl⟩, selected⟩, rfl⟩
    exact ⟨selected, row, Table.find?_eq_some_iff.mpr ⟨rowMem, rfl⟩, rfl⟩
  · rintro ⟨selected, row, found, rfl⟩
    obtain ⟨rowMem, rfl⟩ := Table.find?_eq_some_iff.mp found
    exact ⟨⟨⟨row, rowMem, rfl⟩, selected⟩, rfl⟩

theorem Db.definitionParent_eq_some_iff {id parent : ContextId} :
    definitionParent (db.expansionDefinitions directIds principal flag) id = some parent ↔
      id ∈ db.selectedEffectiveIds directIds principal flag ∧
        db.contextParent id = some parent := by
  simp only [definitionParent, Option.bind_eq_some_iff, Db.definitionById_eq_some_iff,
    Db.contextParent, Option.map_eq_some_iff]
  constructor
  · rintro ⟨context, ⟨selected, row, found, rfl⟩, linked⟩
    exact ⟨selected, row, found, linked⟩
  · rintro ⟨selected, row, found, linked⟩
    exact ⟨row.context, ⟨selected, row, found, rfl⟩, linked⟩

theorem Db.storedAbove_of_definitionParent {ancestor node : ContextId}
    (above : Above (definitionParent (db.expansionDefinitions directIds principal flag)) ancestor
      node) : db.StoredAbove ancestor node :=
  Relation.TransGen.mono (fun _ _ linked => (Db.definitionParent_eq_some_iff.mp linked).2)
    node ancestor above

/-! ## The walks -/

/-- The contexts a walk from a cursor passes. -/
def OnChain (definitions : List ContextDefinition) (cursor : Option ContextId)
    (id : ContextId) : Prop :=
  ∃ node, cursor = some node ∧ (id = node ∨ Above (definitionParent definitions) id node)

theorem not_onChain_none {definitions : List ContextDefinition} {id : ContextId} :
    ¬OnChain definitions none id := by
  rintro ⟨node, absent, _⟩
  cases absent

/-- A chain is its first context and the chain of that context's parent. -/
theorem onChain_some_iff {definitions : List ContextDefinition} {node id : ContextId} :
    OnChain definitions (some node) id ↔
      id = node ∨ OnChain definitions (definitionParent definitions node) id := by
  constructor
  · rintro ⟨_, same, onChain⟩
    cases same
    rcases onChain with rfl | above
    · exact Or.inl rfl
    · cases linked : definitionParent definitions node with
      | none => exact absurd above (not_above_of_parent_none linked)
      | some up => exact Or.inr ⟨up, rfl, (above_iff_of_parent linked).mp above⟩
  · rintro (rfl | ⟨up, linked, onChain⟩)
    · exact ⟨id, rfl, Or.inl rfl⟩
    · exact ⟨node, rfl, Or.inr ((above_iff_of_parent linked).mpr onChain)⟩

theorem onChain_definitionParent_iff {definitions : List ContextDefinition}
    {node id : ContextId} :
    OnChain definitions (definitionParent definitions node) id ↔
      Above (definitionParent definitions) id node := by
  cases linked : definitionParent definitions node with
  | none => simp [not_onChain_none, not_above_of_parent_none linked]
  | some up =>
      rw [above_iff_of_parent linked]
      constructor
      · rintro ⟨_, same, onChain⟩
        cases same
        exact onChain
      · exact fun onChain => ⟨up, rfl, onChain⟩

theorem definitionParent_of_definitionById {definitions : List ContextDefinition}
    {id : ContextId} {context : ContextDefinition}
    (found : definitionById definitions id = some context) :
    definitionParent definitions id = context.parentId := by
  rw [definitionParent, found, Option.bind_some]

theorem id_of_definitionById {definitions : List ContextDefinition} {id : ContextId}
    {context : ContextDefinition} (found : definitionById definitions id = some context) :
    context.id = id := by
  simpa using List.find?_some found

/-- A completed ancestor walk passed defined contexts only, and returns the
active ones. -/
theorem activeAncestors_ok {definitions : List ContextDefinition} {direct : ContextId}
    {fuel : Nat} :
    ∀ {seen : List ContextId} {cursor : Option ContextId} {above : List ContextDefinition},
      activeAncestors definitions direct fuel seen cursor = .ok above →
      (∀ id, OnChain definitions cursor id →
        ∃ context, definitionById definitions id = some context) ∧
      ∀ context, context ∈ above ↔ context.lifecycle = .active ∧
        OnChain definitions cursor context.id ∧
        definitionById definitions context.id = some context := by
  induction fuel with
  | zero =>
      intro seen cursor above ran
      cases cursor with
      | none =>
          cases ran
          simp [not_onChain_none]
      | some node => cases ran
  | succ fuel inductionHypothesis =>
      intro seen cursor above ran
      cases cursor with
      | none =>
          cases ran
          simp [not_onChain_none]
      | some node =>
          rw [activeAncestors] at ran
          split at ran
          · cases ran
          · cases found : definitionById definitions node with
            | none =>
                rw [found] at ran
                cases ran
            | some parent =>
                rw [found] at ran
                obtain ⟨rest, restRan, done⟩ := bind_eq_ok.mp ran
                have same := definitionParent_of_definitionById found
                rw [← same] at restRan
                obtain ⟨defined, described⟩ := inductionHypothesis restRan
                refine ⟨?_, ?_⟩
                · intro id onChain
                  rcases onChain_some_iff.mp onChain with rfl | higher
                  · exact ⟨parent, found⟩
                  · exact defined id higher
                · intro context
                  rw [← Except.ok.inj done, onChain_some_iff]
                  have parentId := id_of_definitionById found
                  constructor
                  · intro member
                    split at member
                    · rename_i active
                      rcases List.mem_cons.mp member with rfl | higher
                      · exact ⟨active, Or.inl parentId, by rw [parentId]; exact found⟩
                      · obtain ⟨contextActive, onChain, contextFound⟩ :=
                          (described context).mp higher
                        exact ⟨contextActive, Or.inr onChain, contextFound⟩
                    · obtain ⟨contextActive, onChain, contextFound⟩ :=
                        (described context).mp member
                      exact ⟨contextActive, Or.inr onChain, contextFound⟩
                  · rintro ⟨active, here | higher, contextFound⟩
                    · rw [here, found] at contextFound
                      cases contextFound
                      rw [if_pos active]
                      exact List.mem_cons_self
                    · have later := (described context).mpr ⟨active, higher, contextFound⟩
                      split
                      · exact List.mem_cons_of_mem parent later
                      · exact later

/-- A completed descendant walk tells whether a direct context is on its chain. -/
theorem reachesDirect_ok {definitions : List ContextDefinition} {fuel : Nat} :
    ∀ {visited : List ContextId} {cursor : Option ContextId} {below : Bool},
      reachesDirect definitions directIds fuel visited cursor = .ok below →
      (below = true ↔ ∃ direct ∈ directIds, OnChain definitions cursor direct) := by
  induction fuel with
  | zero =>
      intro visited cursor below ran
      cases cursor with
      | none =>
          cases ran
          simp [not_onChain_none]
      | some node => cases ran
  | succ fuel inductionHypothesis =>
      intro visited cursor below ran
      cases cursor with
      | none =>
          cases ran
          simp [not_onChain_none]
      | some node =>
          rw [reachesDirect] at ran
          split at ran
          · cases ran
          · split at ran
            · rename_i here
              cases ran
              simp only [true_iff]
              exact ⟨node, here, onChain_some_iff.mpr (Or.inl rfl)⟩
            · rename_i elsewhere
              rw [inductionHypothesis ran]
              constructor
              · rintro ⟨direct, directMem, onChain⟩
                exact ⟨direct, directMem, onChain_some_iff.mpr (Or.inr onChain)⟩
              · rintro ⟨direct, directMem, onChain⟩
                rcases onChain_some_iff.mp onChain with rfl | higher
                · exact absurd directMem elsewhere
                · exact ⟨direct, directMem, higher⟩

/-! ## The expansion -/

theorem Db.isActive_iff {id : ContextId} :
    db.isActive id = true ↔
      ∃ row, db.contexts.find? id = some row ∧ row.context.lifecycle = .active := by
  simp only [Db.isActive]
  cases db.contexts.find? id with
  | none => simp
  | some row => simp

/-- A selected context passed the checks of the expansion. -/
theorem Db.requireSelectable_ok {id : ContextId} {done : Unit}
    (ran : db.requireSelectable principal id = .ok done) :
    db.VisibleId principal id ∧ db.isActive id = true := by
  rw [Db.requireSelectable] at ran
  cases found : db.contexts.find? id with
  | none =>
      simp only [Db.fetchContextAuthorized, found, Option.map_none, Option.filter_none] at ran
      cases ran
  | some row =>
      simp only [Db.fetchContextAuthorized, found, Option.map_some, Option.filter_some] at ran
      by_cases visible : db.contextVisible row.context principal = true
      · rw [if_pos visible] at ran
        exact ⟨⟨row, found, visible⟩,
          Db.isActive_iff.mpr ⟨row, found, by simpa using ensure_eq_ok.mp ran⟩⟩
      · rw [if_neg visible] at ran
        cases ran

/-- Below the bound on effective contexts, no active context is cut off. -/
theorem Db.mem_selectedEffectiveIds_of_active {id : ContextId}
    (bounded : (activeDefinitions (db.expansionDefinitions directIds principal flag)).length ≤
      maxEffectiveContexts)
    (member : id ∈ db.effectiveIds directIds principal flag) (active : db.isActive id = true) :
    id ∈ db.selectedEffectiveIds directIds principal flag := by
  let actives := (db.effectiveIds directIds principal flag).filter db.isActive
  let capped := actives.take (maxEffectiveContexts + 1)
  have cappedSelected : ∀ other ∈ capped,
      other ∈ db.selectedEffectiveIds directIds principal flag := by
    intro other otherMem
    exact mem_recursiveUnion_iff.mpr ⟨other, otherMem, Relation.ReflTransGen.refl⟩
  have counted : capped.Subperm
      ((activeDefinitions (db.expansionDefinitions directIds principal flag)).map (·.id)) := by
    apply List.subperm_of_subset
    · exact (Db.nodup_effectiveIds.filter _).sublist (List.take_sublist _ _)
    · intro other otherMem
      obtain ⟨row, found, rowActive⟩ :=
        Db.isActive_iff.mp (List.mem_filter.mp (List.mem_of_mem_take otherMem)).2
      obtain ⟨rowMem, rfl⟩ := Table.find?_eq_some_iff.mp found
      apply List.mem_map.mpr
      refine ⟨row.context, List.mem_filter.mpr ⟨?_, by simpa using rowActive⟩, rfl⟩
      exact Db.mem_expansionDefinitions_iff.mpr
        ⟨⟨row, rowMem, rfl⟩, cappedSelected _ otherMem⟩
  have short : capped.length ≤ maxEffectiveContexts := by
    have inside := counted.length_le
    rw [List.length_map] at inside
    exact inside.trans bounded
  have uncut : capped = actives := by
    apply List.take_of_length_le
    rw [List.length_take] at short
    omega
  apply cappedSelected
  rw [uncut]
  exact List.mem_filter.mpr ⟨member, active⟩

/-- Where no parent is missing, the walk sees the stored chain. -/
theorem Db.storedAbove_iff_of_defined {node ancestor : ContextId}
    (nodeMem : node ∈ db.selectedEffectiveIds directIds principal flag)
    (defined : ∀ id,
      Above (definitionParent (db.expansionDefinitions directIds principal flag)) id node →
      id ∈ db.selectedEffectiveIds directIds principal flag) :
    db.StoredAbove ancestor node ↔
      Above (definitionParent (db.expansionDefinitions directIds principal flag)) ancestor
        node := by
  constructor
  · intro above
    induction above with
    | single linked =>
        exact Above.of_parent (Db.definitionParent_eq_some_iff.mpr ⟨nodeMem, linked⟩)
    | tail _ linked inductionHypothesis =>
        have middleMem := defined _ inductionHypothesis
        exact Above.trans
          (Above.of_parent (Db.definitionParent_eq_some_iff.mpr ⟨middleMem, linked⟩))
          inductionHypothesis
  · exact Db.storedAbove_of_definitionParent

/-- Chains inside the selection are chains of visible children. -/
theorem Db.visiblyBelow_of_definitionParent (visible : db.AllVisible principal directIds)
    {top node : ContextId}
    (above : Above (definitionParent (db.expansionDefinitions directIds principal flag)) top
      node) : db.VisiblyBelow principal top node := by
  apply Relation.transGen_swap.mp
  refine Relation.TransGen.mono ?_ node top above
  intro child up linked
  obtain ⟨childMem, stored⟩ := Db.definitionParent_eq_some_iff.mp linked
  exact Db.visibleChild_iff.mpr ⟨stored, visible.selectedEffectiveIds child childMem⟩

/-- Chains of visible children that end in the selection lie inside it. -/
theorem Db.above_definitionParent_of_visiblyBelow {top node : ContextId}
    (below : db.VisiblyBelow principal top node)
    (nodeMem : node ∈ db.selectedEffectiveIds directIds principal flag) :
    Above (definitionParent (db.expansionDefinitions directIds principal flag)) top node := by
  induction below with
  | single linked =>
      exact Above.of_parent
        (Db.definitionParent_eq_some_iff.mpr ⟨nodeMem, (Db.visibleChild_iff.mp linked).1⟩)
  | tail path linked inductionHypothesis =>
      have stored := (Db.visibleChild_iff.mp linked).1
      obtain ⟨_, _, last⟩ := Relation.TransGen.tail'_iff.mp path
      have middleMem := Db.mem_selectedEffectiveIds_of_parent nodeMem stored
        (Db.visibleChild_iff.mp last).2
      exact Above.trans (inductionHypothesis middleMem)
        (Above.of_parent (Db.definitionParent_eq_some_iff.mpr ⟨nodeMem, stored⟩))

theorem nodup_foldl_appendContextOnce (items : List ContextDefinition) :
    ∀ result : List ContextDefinition, (result.map (·.id)).Nodup →
      ((items.foldl appendContextOnce result).map (·.id)).Nodup := by
  induction items with
  | nil => exact fun _ nodup => nodup
  | cons item rest inductionHypothesis =>
      intro result nodup
      rw [List.foldl_cons]
      apply inductionHypothesis
      rw [appendContextOnce]
      split
      · exact nodup
      · rename_i absent
        rw [List.map_append, List.map_cons, List.map_nil, List.nodup_append_comm]
        apply List.nodup_cons.mpr
        refine ⟨?_, nodup⟩
        intro present
        obtain ⟨included, includedMem, sameId⟩ := List.mem_map.mp present
        exact absent (List.any_eq_true.mpr ⟨included, includedMem, by simpa using sameId⟩)

theorem mem_of_mem_foldl_appendContextOnce {context : ContextDefinition}
    (items : List ContextDefinition) :
    ∀ result : List ContextDefinition, context ∈ items.foldl appendContextOnce result →
      context ∈ result ∨ context ∈ items := by
  induction items with
  | nil => exact fun _ member => Or.inl member
  | cons item rest inductionHypothesis =>
      intro result member
      rw [List.foldl_cons] at member
      rcases inductionHypothesis _ member with early | later
      · rw [appendContextOnce] at early
        split at early
        · exact Or.inl early
        · rcases List.mem_append.mp early with older | added
          · exact Or.inl older
          · exact Or.inr (List.mem_cons.mpr (Or.inl (List.mem_singleton.mp added)))
      · exact Or.inr (List.mem_cons_of_mem item later)

theorem id_mem_foldl_appendContextOnce {id : ContextId} (items : List ContextDefinition) :
    ∀ result : List ContextDefinition,
      id ∈ result.map (·.id) ∨ id ∈ items.map (·.id) →
      id ∈ (items.foldl appendContextOnce result).map (·.id) := by
  induction items with
  | nil =>
      rintro result (member | absent)
      · exact member
      · cases absent
  | cons item rest inductionHypothesis =>
      intro result member
      rw [List.foldl_cons]
      apply inductionHypothesis
      have kept : id ∈ result.map (·.id) ∨ id = item.id →
          id ∈ (appendContextOnce result item).map (·.id) := by
        intro present
        rw [appendContextOnce]
        split
        · rename_i included
          rcases present with older | rfl
          · exact older
          · obtain ⟨other, otherMem, sameId⟩ := List.any_eq_true.mp included
            exact List.mem_map.mpr ⟨other, otherMem, by simpa using sameId⟩
        · rw [List.map_append]
          rcases present with older | rfl
          · exact List.mem_append_left _ older
          · exact List.mem_append_right _ (by simp)
      rcases member with older | listed
      · exact Or.inl (kept (Or.inl older))
      · rw [List.map_cons] at listed
        rcases List.mem_cons.mp listed with here | later
        · exact Or.inl (kept (Or.inr here))
        · exact Or.inr later

/-- What a successful expansion returns. -/
structure Expansion (db : Db) (principal : String) (directIds : List ContextId) (flag : Bool)
    (effective : List ContextDefinition) : Prop where
  stored : ∀ context ∈ effective, ∃ row ∈ db.contexts, row.context = context
  nodup : (effective.map (·.id)).Nodup
  mem_iff : ∀ id, id ∈ effective.map (·.id) ↔ db.SelectedOrInherited principal directIds flag id

/-- The chain of a direct context is that context and its active stored
ancestors. -/
theorem Db.mem_directWithAncestors_iff {direct : ContextId} {chain : List ContextDefinition}
    (ran : directWithAncestors (db.expansionDefinitions directIds principal flag) direct =
      .ok chain) (active : db.isActive direct = true) (context : ContextDefinition) :
    context ∈ chain ↔ (∃ row ∈ db.contexts, row.context = context) ∧
      context.lifecycle = .active ∧
        (context.id = direct ∨ db.StoredAbove context.id direct) := by
  rw [directWithAncestors] at ran
  cases found : definitionById (db.expansionDefinitions directIds principal flag) direct with
  | none =>
      rw [found] at ran
      cases ran
  | some definition =>
      rw [found] at ran
      obtain ⟨_, ran⟩ := of_ensure_bind ran
      obtain ⟨above, aboveRan, done⟩ := bind_eq_ok.mp ran
      rw [← definitionParent_of_definitionById found] at aboveRan
      obtain ⟨defined, described⟩ := activeAncestors_ok aboveRan
      obtain ⟨directMem, storedDirect⟩ := Db.definitionById_eq_some_iff.mp found
      have sameChain : ∀ id, db.StoredAbove id direct ↔ _ := fun id =>
        Db.storedAbove_iff_of_defined directMem (fun other higher => by
          obtain ⟨_, otherFound⟩ := defined other (onChain_definitionParent_iff.mpr higher)
          exact (Db.definitionById_eq_some_iff.mp otherFound).1)
      obtain ⟨directRow, directFound, directContext⟩ := Option.map_eq_some_iff.mp storedDirect
      obtain ⟨activeRow, activeFound, lifecycle⟩ := Db.isActive_iff.mp active
      rw [directFound] at activeFound
      cases activeFound
      rw [← Except.ok.inj done, List.mem_cons, described, onChain_definitionParent_iff,
        ← sameChain]
      constructor
      · rintro (rfl | ⟨contextActive, higher, contextFound⟩)
        · refine ⟨⟨directRow, Table.mem_of_find? directFound, directContext⟩, ?_, Or.inl ?_⟩
          · rw [← directContext]
            exact lifecycle
          · exact id_of_definitionById found
        · obtain ⟨row, rowFound, rowContext⟩ := Option.map_eq_some_iff.mp
            (Db.definitionById_eq_some_iff.mp contextFound).2
          exact ⟨⟨row, Table.mem_of_find? rowFound, rowContext⟩, contextActive, Or.inr higher⟩
      · rintro ⟨⟨row, rowMem, rfl⟩, contextActive, here | higher⟩
        · left
          rw [← here, Table.find?_eq_some_iff.mpr ⟨rowMem, rfl⟩] at storedDirect
          exact Option.some.inj storedDirect
        · right
          refine ⟨contextActive, higher, Db.definitionById_eq_some_iff.mpr ⟨?_, ?_⟩⟩
          · obtain ⟨_, contextFound⟩ := defined row.context.id
              (onChain_definitionParent_iff.mpr ((sameChain _).mp higher))
            exact (Db.definitionById_eq_some_iff.mp contextFound).1
          · rw [Table.find?_eq_some_iff.mpr ⟨rowMem, rfl⟩, Option.map_some]

theorem Db.definitionById_of_mem {context : ContextDefinition}
    (member : context ∈ db.expansionDefinitions directIds principal flag) :
    definitionById (db.expansionDefinitions directIds principal flag) context.id =
      some context := by
  obtain ⟨⟨row, rowMem, rfl⟩, selected⟩ := Db.mem_expansionDefinitions_iff.mp member
  apply Db.definitionById_eq_some_iff.mpr
  refine ⟨selected, ?_⟩
  rw [Table.find?_eq_some_iff.mpr ⟨rowMem, rfl⟩, Option.map_some]

/-- A tested candidate is kept exactly when a direct context lies above it. -/
theorem Db.descendantCandidate_ok {candidate : ContextDefinition}
    {kept : Option ContextDefinition}
    (member : candidate ∈ db.expansionDefinitions directIds principal flag)
    (ran : descendantCandidate (db.expansionDefinitions directIds principal flag) directIds
      candidate = .ok kept) :
    (kept = some candidate ∧ ∃ direct ∈ directIds,
      Above (definitionParent (db.expansionDefinitions directIds principal flag)) direct
        candidate.id) ∨
    (kept = none ∧ ∀ direct ∈ directIds,
      ¬Above (definitionParent (db.expansionDefinitions directIds principal flag)) direct
        candidate.id) := by
  obtain ⟨below, belowRan, done⟩ := bind_eq_ok.mp ran
  rw [← definitionParent_of_definitionById (Db.definitionById_of_mem member)] at belowRan
  have decided := reachesDirect_ok belowRan
  simp only [onChain_definitionParent_iff] at decided
  rw [← Except.ok.inj done]
  cases below with
  | true => exact Or.inl ⟨rfl, decided.mp rfl⟩
  | false =>
      refine Or.inr ⟨rfl, ?_⟩
      intro direct directMem above
      exact absurd (decided.mpr ⟨direct, directMem, above⟩) Bool.false_ne_true

/-- The descendants added on request. -/
theorem Db.mem_descendants_iff {below : List ContextDefinition}
    (visible : db.AllVisible principal directIds)
    (bounded : (activeDefinitions (db.expansionDefinitions directIds principal true)).length ≤
      maxEffectiveContexts)
    (ran : (activeDefinitions (db.expansionDefinitions directIds principal true)).filterMapM
      (descendantCandidate (db.expansionDefinitions directIds principal true) directIds) =
        .ok below) (context : ContextDefinition) :
    context ∈ below ↔ (∃ row ∈ db.contexts, row.context = context) ∧
      context.lifecycle = .active ∧
        ∃ direct ∈ directIds, db.VisiblyBelow principal direct context.id := by
  obtain ⟨tested, described⟩ := filterMapM_ok ran
  rw [described]
  constructor
  · rintro ⟨candidate, candidateMem, keptRan⟩
    obtain ⟨member, active⟩ := List.mem_filter.mp candidateMem
    rcases Db.descendantCandidate_ok member keptRan with ⟨kept, direct, directMem, above⟩ |
      ⟨dropped, _⟩
    · cases kept
      exact ⟨(Db.mem_expansionDefinitions_iff.mp member).1, by simpa using active, direct,
        directMem, Db.visiblyBelow_of_definitionParent visible above⟩
    · cases dropped
  · rintro ⟨⟨row, rowMem, rfl⟩, active, direct, directMem, reached⟩
    have found := Table.find?_eq_some_iff.mpr ⟨rowMem, rfl⟩
    have selected : row.context.id ∈ db.selectedEffectiveIds directIds principal true :=
      Db.mem_selectedEffectiveIds_of_active bounded
        (Db.mem_effectiveIds_of_visiblyBelow directMem reached)
        (Db.isActive_iff.mpr ⟨row, found, active⟩)
    have member : row.context ∈ db.expansionDefinitions directIds principal true :=
      Db.mem_expansionDefinitions_iff.mpr ⟨⟨row, rowMem, rfl⟩, selected⟩
    have candidateMem : row.context ∈
        activeDefinitions (db.expansionDefinitions directIds principal true) :=
      List.mem_filter.mpr ⟨member, by simpa using active⟩
    refine ⟨row.context, candidateMem, ?_⟩
    obtain ⟨kept, keptRan⟩ := tested row.context candidateMem
    rcases Db.descendantCandidate_ok member keptRan with ⟨rfl, _⟩ | ⟨_, unreached⟩
    · exact keptRan
    · exact absurd (Db.above_definitionParent_of_visiblyBelow reached selected)
        (unreached direct directMem)

/-- A successful expansion returns the active selected and inherited contexts. -/
theorem Db.expandContextSelection_ok {effective : List ContextDefinition}
    (ran : db.expandContextSelection directIds principal flag = .ok effective) :
    Expansion db principal directIds flag effective := by
  rw [Db.expandContextSelection] at ran
  obtain ⟨_, checked, ran⟩ := bind_eq_ok.mp ran
  have selectable : ∀ direct ∈ directIds,
      db.VisibleId principal direct ∧ db.isActive direct = true := by
    intro direct directMem
    obtain ⟨_, _, checkRan⟩ := mapM_ok_forall checked direct directMem
    exact Db.requireSelectable_ok checkRan
  have visible : db.AllVisible principal directIds :=
    fun direct directMem => (selectable direct directMem).1
  rw [expandContextDefinitions] at ran
  obtain ⟨bounded, ran⟩ := of_ensure_bind ran
  rw [decide_eq_true_eq] at bounded
  obtain ⟨chains, chainsRan, ran⟩ := bind_eq_ok.mp ran
  obtain ⟨below, belowRan, done⟩ := bind_eq_ok.mp ran
  cases done
  have mem_chains : ∀ context, context ∈ chains.flatten ↔
      ∃ direct ∈ directIds, (∃ row ∈ db.contexts, row.context = context) ∧
        context.lifecycle = .active ∧
          (context.id = direct ∨ db.StoredAbove context.id direct) := by
    intro context
    rw [List.mem_flatten]
    constructor
    · rintro ⟨chain, chainMem, member⟩
      obtain ⟨direct, directMem, chainRan⟩ := exists_of_mem_mapM chainsRan chainMem
      exact ⟨direct, directMem, (Db.mem_directWithAncestors_iff chainRan
        (selectable direct directMem).2 context).mp member⟩
    · rintro ⟨direct, directMem, described⟩
      obtain ⟨chain, chainMem, chainRan⟩ := mapM_ok_forall chainsRan direct directMem
      exact ⟨chain, chainMem, (Db.mem_directWithAncestors_iff chainRan
        (selectable direct directMem).2 context).mpr described⟩
  have mem_below : ∀ context, context ∈ below ↔
      flag = true ∧ (∃ row ∈ db.contexts, row.context = context) ∧
        context.lifecycle = .active ∧
          ∃ direct ∈ directIds, db.VisiblyBelow principal direct context.id := by
    intro context
    cases flag with
    | true =>
        rw [requestedDescendants, if_pos rfl] at belowRan
        simpa using Db.mem_descendants_iff visible bounded belowRan context
    | false =>
        cases belowRan
        simp
  constructor
  · intro context member
    rcases mem_of_mem_foldl_appendContextOnce _ _ member with absent | listed
    · cases absent
    · rcases List.mem_append.mp listed with inChain | inBelow
      · obtain ⟨_, _, stored, _⟩ := (mem_chains context).mp inChain
        exact stored
      · exact ((mem_below context).mp inBelow).2.1
  · exact nodup_foldl_appendContextOnce _ _ List.nodup_nil
  · intro id
    constructor
    · intro member
      obtain ⟨context, contextMem, rfl⟩ := List.mem_map.mp member
      rcases mem_of_mem_foldl_appendContextOnce _ _ contextMem with absent | listed
      · cases absent
      · rcases List.mem_append.mp listed with inChain | inBelow
        · obtain ⟨direct, directMem, ⟨row, rowMem, rfl⟩, active, position⟩ :=
            (mem_chains context).mp inChain
          refine ⟨Db.isActive_iff.mpr
            ⟨row, Table.find?_eq_some_iff.mpr ⟨rowMem, rfl⟩, active⟩, ?_⟩
          rcases position with here | higher
          · exact Or.inl (here ▸ directMem)
          · exact Or.inr (Or.inl ⟨direct, directMem, higher⟩)
        · obtain ⟨flagged, ⟨row, rowMem, rfl⟩, active, reached⟩ := (mem_below context).mp inBelow
          exact ⟨Db.isActive_iff.mpr
            ⟨row, Table.find?_eq_some_iff.mpr ⟨rowMem, rfl⟩, active⟩,
            Or.inr (Or.inr ⟨flagged, reached⟩)⟩
    · rintro ⟨active, position⟩
      obtain ⟨row, found, lifecycle⟩ := Db.isActive_iff.mp active
      obtain ⟨rowMem, rfl⟩ := Table.find?_eq_some_iff.mp found
      apply id_mem_foldl_appendContextOnce
      right
      apply List.mem_map.mpr
      refine ⟨row.context, List.mem_append.mpr ?_, rfl⟩
      rcases position with direct | ⟨direct, directMem, higher⟩ | ⟨flagged, reached⟩
      · exact Or.inl ((mem_chains _).mpr
          ⟨_, direct, ⟨row, rowMem, rfl⟩, lifecycle, Or.inl rfl⟩)
      · exact Or.inl ((mem_chains _).mpr
          ⟨direct, directMem, ⟨row, rowMem, rfl⟩, lifecycle, Or.inr higher⟩)
      · exact Or.inr ((mem_below _).mpr ⟨flagged, ⟨row, rowMem, rfl⟩, lifecycle, reached⟩)

end LocalHold
