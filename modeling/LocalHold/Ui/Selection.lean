import LocalHold.Hierarchy.Visits
import LocalHold.Store.ExpansionTotal
import LocalHold.Ui.App

/-!
# The effective contexts of the interface

The interface expands a selection itself, from the catalog it loaded, instead
of asking the store.  On the catalog of the store both expansions agree.
-/

namespace LocalHold

open Relational Hierarchy Transition.Checked

/-! ## The catalog -/

/-- `load_context_records` with the archived contexts, on one moment of the
store. -/
def Db.visibleContextRecords (db : Db) (principal : String) : List ContextRecord :=
  (orderBy contextRowBefore (db.contexts.select fun row =>
    db.contextVisible row.context principal)).map fun row => db.fetchContextRecord row.context

section Catalog

variable {db : Db} {principal : String}

theorem Db.mem_visibleContextRecords_iff {record : ContextRecord} :
    record ∈ db.visibleContextRecords principal ↔ ∃ row ∈ db.contexts,
      db.contextVisible row.context principal = true ∧
        db.fetchContextRecord row.context = record := by
  simp only [Db.visibleContextRecords, List.mem_map, mem_orderBy, Table.mem_select_iff, and_assoc]

/-- A record of the catalog is found by its identifier. -/
theorem Db.find_visibleContextRecords (db : Db) (principal : String) (id : ContextId) :
    (db.visibleContextRecords principal).find? (fun record => decide (record.context.id = id)) =
      ((db.contexts.find? id).filter fun row => db.contextVisible row.context principal).map
        fun row => db.fetchContextRecord row.context := by
  cases listed : (db.visibleContextRecords principal).find?
      fun record => decide (record.context.id = id) with
  | none =>
      cases found : db.contexts.find? id with
      | none => rfl
      | some row =>
          cases visible : db.contextVisible row.context principal with
          | false => simp [visible]
          | true =>
              have record : db.fetchContextRecord row.context ∈ db.visibleContextRecords principal :=
                Db.mem_visibleContextRecords_iff.mpr
                  ⟨row, Table.mem_of_find? found, visible, rfl⟩
              have unlisted := List.find?_eq_none.mp listed _ record
              exact absurd (decide_eq_true (Table.find?_key found)) unlisted
  | some record =>
      have named : record.context.id = id := by
        simpa using List.find?_some listed
      rcases Db.mem_visibleContextRecords_iff.mp (List.mem_of_find?_eq_some listed) with
        ⟨row, rowMem, visible, rfl⟩
      have found : db.contexts.find? id = some row := Table.find?_eq_some_iff.mpr ⟨rowMem, named⟩
      rw [found, Option.filter_some, if_pos visible]
      rfl

end Catalog

namespace App

section Agreement

variable {app : App} {db : Db} {principal : String}
  (catalog : app.contextRecords = db.visibleContextRecords principal)

include catalog

/-- The parents that the interface knows are the links that the principal can
see. -/
theorem contextParentId_iff {child parent : ContextId} :
    app.contextParentId child = some parent ↔ db.visibleChild principal parent child = true := by
  rw [contextParentId, catalog, db.find_visibleContextRecords, Db.visibleChild]
  cases found : db.contexts.find? child with
  | none => simp
  | some row =>
      cases visible : db.contextVisible row.context principal with
      | false => simp [Option.filter_some, visible]
      | true => simp [Option.filter_some, visible, Db.fetchContextRecord]

theorem contextIsActive_iff {id : ContextId} :
    app.contextIsActive id = true ↔ db.VisibleId principal id ∧ db.isActive id = true := by
  rw [contextIsActive, catalog, db.find_visibleContextRecords, Db.isActive, Db.VisibleId]
  cases found : db.contexts.find? id with
  | none => simp
  | some row =>
      cases visible : db.contextVisible row.context principal with
      | false => simp [Option.filter_some, visible]
      | true => simp [Option.filter_some, visible, Db.fetchContextRecord]

/-- Above in the interface is reached downwards in the store. -/
theorem above_iff_visiblyBelow {top node : ContextId} :
    Above app.contextParentId top node ↔ db.VisiblyBelow principal top node := by
  have swapped : Above app.contextParentId top node ↔
      Relation.TransGen (fun parent child => app.contextParentId child = some parent) top node :=
    Relation.transGen_swap
  rw [swapped, Db.VisiblyBelow]
  simp only [contextParentId_iff catalog]

/-- Below a visible context with visible ancestors the interface knows every
link. -/
theorem above_of_storedAbove {direct ancestor : ContextId}
    (visible : db.VisibleId principal direct)
    (ancestors : ∀ higher, db.StoredAbove higher direct → db.VisibleId principal higher)
    (above : db.StoredAbove ancestor direct) : Above app.contextParentId ancestor direct := by
  induction above with
  | single linked =>
      exact Above.of_parent ((contextParentId_iff catalog).mpr
        (Db.visibleChild_iff.mpr ⟨linked, visible⟩))
  | tail path linked inductionHypothesis =>
      refine Above.trans (Above.of_parent ?_) inductionHypothesis
      exact (contextParentId_iff catalog).mpr (Db.visibleChild_iff.mpr ⟨linked, ancestors _ path⟩)

end Agreement

/-! ## The walks -/

/-- The parents that a catalog names. -/
def namedParents (app : App) : List ContextId :=
  app.contextRecords.filterMap (·.context.parentId)

theorem mem_namedParents {app : App} {child parent : ContextId}
    (linked : app.contextParentId child = some parent) : parent ∈ app.namedParents := by
  rcases Option.bind_eq_some_iff.mp linked with ⟨record, found, named⟩
  exact List.mem_filterMap.mpr ⟨record, List.mem_of_find?_eq_some found, named⟩

theorem length_namedParents_le (app : App) : app.namedParents.length ≤ app.walkFuel := by
  have fewer := List.length_filterMap_le (·.context.parentId) app.contextRecords
  rw [namedParents, walkFuel]
  omega

theorem mem_visits_iff {app : App} {target node : ContextId} :
    target ∈ visits app.contextParentId app.walkFuel [] (app.contextParentId node) ↔
      Above app.contextParentId target node :=
  mem_visits_parent_iff (fun _ _ linked => mem_namedParents linked) app.length_namedParents_le

/-- Append a context unless it is unwanted or there already. -/
def appendIf (keep : Bool) (effective : List ContextId) (id : ContextId) :
    Except String (List ContextId) :=
  if keep && !effective.contains id then appendEffectiveContext effective id else .ok effective

/-- The ancestor walk appends what it visits. -/
theorem appendContextAncestors_eq (app : App) (fuel : Nat) :
    ∀ (visited : List ContextId) (cursor : Option ContextId) (effective : List ContextId),
      app.appendContextAncestors fuel visited cursor effective =
        (visits app.contextParentId fuel visited cursor).foldlM
          (fun effective id => appendIf (app.contextIsActive id) effective id) effective := by
  induction fuel with
  | zero =>
      intro visited cursor effective
      cases cursor <;> rfl
  | succ fuel inductionHypothesis =>
      intro visited cursor effective
      cases cursor with
      | none => rfl
      | some parent =>
          rw [appendContextAncestors, visits]
          by_cases met : parent ∈ visited
          · rw [if_pos met, if_pos met]
            rfl
          · rw [if_neg met, if_neg met, List.foldlM_cons]
            simp only [inductionHypothesis, appendIf]
            split
            · rfl
            · rfl

/-- The descendant walk looks for a selected context among what it visits. -/
theorem hasSelectedContextAncestor_eq (app : App) (fuel : Nat) :
    ∀ (visited : List ContextId) (cursor : Option ContextId),
      app.hasSelectedContextAncestor fuel visited cursor =
        (visits app.contextParentId fuel visited cursor).any
          fun id => decide (id ∈ app.selectedContextIds) := by
  induction fuel with
  | zero =>
      intro visited cursor
      cases cursor <;> rfl
  | succ fuel inductionHypothesis =>
      intro visited cursor
      cases cursor with
      | none => rfl
      | some parent =>
          rw [hasSelectedContextAncestor, visits]
          by_cases met : parent ∈ visited
          · rw [if_pos met, if_pos met]
            rfl
          · rw [if_neg met, if_neg met, List.any_cons, inductionHypothesis]
            by_cases selected : parent ∈ app.selectedContextIds
            · simp [selected]
            · simp [selected]

/-! ## Appending within a bound -/

theorem foldlM_flatMap {ι : Type} (items : List ι) (parts : ι → List ContextId)
    (body : List ContextId → ContextId → Except String (List ContextId)) :
    ∀ effective : List ContextId, (items.flatMap parts).foldlM body effective =
      items.foldlM (fun effective item => (parts item).foldlM body effective) effective := by
  induction items with
  | nil => exact fun _ => rfl
  | cons item rest inductionHypothesis =>
      intro effective
      rw [List.flatMap_cons, List.foldlM_append, List.foldlM_cons]
      simp only [inductionHypothesis]

/-- What a bounded expansion may hold. -/
structure Grows (bound : List ContextId) (effective : List ContextId) : Prop where
  nodup : effective.Nodup
  within : ∀ id ∈ effective, id ∈ bound

theorem appendIf_ok {bound effective : List ContextId} {id : ContextId} {keep : Bool}
    (small : bound.length ≤ maxEffectiveContexts) (grows : Grows bound effective)
    (kept : keep = true → id ∈ bound) :
    ∃ next, appendIf keep effective id = .ok next ∧ Grows bound next ∧
      ∀ other, other ∈ next ↔ other ∈ effective ∨ (keep = true ∧ other = id) := by
  unfold appendIf
  by_cases wanted : keep = true
  · by_cases present : id ∈ effective
    · refine ⟨effective, if_neg (by simp [present]), grows, ?_⟩
      intro other
      constructor
      · exact Or.inl
      · rintro (old | ⟨_, rfl⟩)
        · exact old
        · exact present
    · have next : Grows bound (effective ++ [id]) := by
        constructor
        · rw [List.nodup_append]
          refine ⟨grows.nodup, List.nodup_singleton id, ?_⟩
          intro old oldMem new newMem
          rw [List.mem_singleton.mp newMem]
          rintro rfl
          exact present oldMem
        · intro other member
          rcases List.mem_append.mp member with old | new
          · exact grows.within other old
          · rw [List.mem_singleton.mp new]
            exact kept wanted
      have room : ¬ maxEffectiveContexts ≤ effective.length := by
        have fits := (List.subperm_of_subset next.nodup next.within).length_le
        rw [List.length_append, List.length_singleton] at fits
        omega
      refine ⟨effective ++ [id], ?_, next, ?_⟩
      · rw [if_pos (by simp [wanted, present]), appendEffectiveContext, if_neg room]
      · intro other
        simp [wanted]
  · refine ⟨effective, if_neg (by simp [wanted]), grows, ?_⟩
    intro other
    simp [wanted]

theorem foldlM_appendIf_ok {ι : Type} {bound : List ContextId} (keep : ι → Bool)
    (name : ι → ContextId) (small : bound.length ≤ maxEffectiveContexts) (items : List ι) :
    ∀ {effective : List ContextId}, Grows bound effective →
      (∀ item ∈ items, keep item = true → name item ∈ bound) →
      ∃ next, items.foldlM (fun effective item => appendIf (keep item) effective (name item))
          effective = .ok next ∧ Grows bound next ∧
        ∀ id, id ∈ next ↔ id ∈ effective ∨ ∃ item ∈ items, keep item = true ∧ name item = id := by
  induction items with
  | nil =>
      intro effective grows _
      exact ⟨effective, rfl, grows, by simp⟩
  | cons item rest inductionHypothesis =>
      intro effective grows kept
      rcases List.forall_mem_cons.mp kept with ⟨keptItem, keptRest⟩
      rcases appendIf_ok small grows keptItem with ⟨middle, ran, middleGrows, members⟩
      rcases inductionHypothesis middleGrows keptRest with ⟨next, restRan, nextGrows, more⟩
      refine ⟨next, ?_, nextGrows, ?_⟩
      · rw [List.foldlM_cons]
        exact bind_eq_ok.mpr ⟨middle, ran, restRan⟩
      · intro id
        rw [more, members, List.exists_mem_cons_iff]
        constructor
        · rintro ((old | ⟨wanted, rfl⟩) | later)
          · exact Or.inl old
          · exact Or.inr (Or.inl ⟨wanted, rfl⟩)
          · exact Or.inr (Or.inr later)
        · rintro (old | ⟨wanted, rfl⟩ | later)
          · exact Or.inl (Or.inl old)
          · exact Or.inl (Or.inr ⟨wanted, rfl⟩)
          · exact Or.inr later

/-! ## Agreement with the store -/

section Selections

variable {app : App} {db : Db} {principal : String} {bound : List ContextId} {flag : Bool}
  (catalog : app.contextRecords = db.visibleContextRecords principal)
  (available : db.Available principal app.selectedContextIds)

include catalog available

/-- What the ancestor walks append. -/
theorem above_active_iff {id : ContextId} :
    (∃ direct ∈ app.selectedContextIds, Above app.contextParentId id direct ∧
        app.contextIsActive id = true) ↔
      db.isActive id = true ∧ ∃ direct ∈ app.selectedContextIds, db.StoredAbove id direct := by
  constructor
  · rintro ⟨direct, selected, above, active⟩
    have below := (above_iff_visiblyBelow catalog).mp above
    exact ⟨((contextIsActive_iff catalog).mp active).2, direct, selected, below.storedAbove⟩
  · rintro ⟨active, direct, selected, above⟩
    have ancestors := available.ancestors direct selected
    refine ⟨direct, selected, ?_, (contextIsActive_iff catalog).mpr ⟨ancestors id above, active⟩⟩
    exact above_of_storedAbove catalog (available.visible direct selected) ancestors above

/-- The direct selections with their ancestors, appended within a bound that
holds every context the selection stands for. -/
theorem selectedWithAncestors_ok (small : bound.length ≤ maxEffectiveContexts)
    (distinct : app.selectedContextIds.Nodup)
    (complete : ∀ id, db.SelectedOrInherited principal app.selectedContextIds flag id → id ∈ bound) :
    ∃ effective, app.selectedWithAncestors = .ok effective ∧ Grows bound effective ∧
      ∀ id, id ∈ effective ↔ id ∈ app.selectedContextIds ∨
        (db.isActive id = true ∧ ∃ direct ∈ app.selectedContextIds, db.StoredAbove id direct) := by
  have start : Grows bound app.selectedContextIds := by
    refine ⟨distinct, ?_⟩
    intro id selected
    exact complete id ⟨available.active id selected, Or.inl selected⟩
  have walked := foldlM_appendIf_ok app.contextIsActive id small
    (app.selectedContextIds.flatMap fun direct =>
      visits app.contextParentId app.walkFuel [] (app.contextParentId direct)) start
    (by
      intro id visited active
      rcases List.mem_flatMap.mp visited with ⟨direct, selected, met⟩
      have both := (above_active_iff catalog available).mp
        ⟨direct, selected, mem_visits_iff.mp met, active⟩
      exact complete id ⟨both.1, Or.inr (Or.inl both.2)⟩)
  rcases walked with ⟨effective, ran, grows, members⟩
  refine ⟨effective, ?_, grows, ?_⟩
  · rw [← ran, foldlM_flatMap]
    unfold selectedWithAncestors
    simp only [appendContextAncestors_eq]
    rfl
  · intro id
    rw [members, ← above_active_iff catalog available]
    simp only [List.mem_flatMap, mem_visits_iff, id_eq]
    constructor
    · rintro (selected | ⟨other, ⟨direct, selected, above⟩, active, rfl⟩)
      · exact Or.inl selected
      · exact Or.inr ⟨direct, selected, above, active⟩
    · rintro (selected | ⟨direct, selected, above, active⟩)
      · exact Or.inl selected
      · exact Or.inr ⟨id, ⟨direct, selected, above⟩, active, rfl⟩

omit available in
/-- What the descendant walk appends. -/
theorem descendant_iff {record : ContextRecord} (listed : record ∈ app.contextRecords) :
    (record.context.lifecycle == .active &&
        app.hasSelectedContextAncestor app.walkFuel [] record.context.parentId) = true ↔
      db.isActive record.context.id = true ∧
        ∃ direct ∈ app.selectedContextIds, db.VisiblyBelow principal direct record.context.id := by
  have known : record ∈ db.visibleContextRecords principal := catalog ▸ listed
  rcases Db.mem_visibleContextRecords_iff.mp known with ⟨row, rowMem, visible, rfl⟩
  have found : db.contexts.find? row.context.id = some row :=
    Table.find?_eq_some_iff.mpr ⟨rowMem, rfl⟩
  have parent : app.contextParentId row.context.id = row.context.parentId := by
    rw [contextParentId, catalog, db.find_visibleContextRecords, found, Option.filter_some,
      if_pos visible]
    rfl
  have active : db.isActive row.context.id = (row.context.lifecycle == .active) := by
    rw [Db.isActive, found]
    rfl
  rw [Bool.and_eq_true]
  change row.context.lifecycle == .active ∧
    app.hasSelectedContextAncestor app.walkFuel [] row.context.parentId = true ↔ _
  rw [← parent, hasSelectedContextAncestor_eq, List.any_eq_true]
  simp only [mem_visits_iff, above_iff_visiblyBelow catalog, decide_eq_true_eq]
  change _ ↔ db.isActive row.context.id = true ∧ _
  rw [active]
  constructor
  · rintro ⟨isActive, direct, below, selected⟩
    exact ⟨isActive, direct, selected, below⟩
  · rintro ⟨isActive, direct, selected, below⟩
    exact ⟨isActive, direct, below, selected⟩

omit available in
/-- A visible context below a selection is in the catalog. -/
theorem exists_record_of_below {direct id : ContextId} (active : db.isActive id = true)
    (below : db.VisiblyBelow principal direct id) :
    ∃ record ∈ app.contextRecords, record.context.id = id := by
  rcases Db.isActive_iff.mp active with ⟨row, found, _⟩
  have visible : db.VisibleId principal id := by
    rcases Relation.TransGen.tail'_iff.mp below with ⟨parent, _, linked⟩
    exact (Db.visibleChild_iff.mp linked).2
  rcases visible with ⟨other, otherFound, seen⟩
  cases found.symm.trans otherFound
  refine ⟨db.fetchContextRecord row.context, ?_, (Table.find?_eq_some_iff.mp found).2⟩
  rw [catalog]
  exact Db.mem_visibleContextRecords_iff.mpr ⟨row, Table.mem_of_find? found, seen, rfl⟩

omit available in
/-- The descendants of the direct selections, appended within a bound. -/
theorem appendContextDescendants_ok (small : bound.length ≤ maxEffectiveContexts)
    {base : List ContextId} (grows : Grows bound base)
    (complete : ∀ id, db.isActive id = true →
      (∃ direct ∈ app.selectedContextIds, db.VisiblyBelow principal direct id) → id ∈ bound) :
    ∃ effective, app.appendContextDescendants base = .ok effective ∧ Grows bound effective ∧
      ∀ id, id ∈ effective ↔ id ∈ base ∨
        (db.isActive id = true ∧
          ∃ direct ∈ app.selectedContextIds, db.VisiblyBelow principal direct id) := by
  have walked := foldlM_appendIf_ok
    (fun record : ContextRecord => record.context.lifecycle == .active &&
      app.hasSelectedContextAncestor app.walkFuel [] record.context.parentId)
    (·.context.id) small app.contextRecords grows
    (by
      intro record listed kept
      have both := (descendant_iff catalog listed).mp kept
      exact complete _ both.1 both.2)
  rcases walked with ⟨effective, ran, nextGrows, members⟩
  refine ⟨effective, ?_, nextGrows, ?_⟩
  · rw [← ran]
    unfold appendContextDescendants appendIf
    congr 1
    funext effective record
    rw [Bool.and_right_comm]
  · intro id
    rw [members]
    constructor
    · rintro (old | ⟨record, listed, kept, rfl⟩)
      · exact Or.inl old
      · exact Or.inr ((descendant_iff catalog listed).mp kept)
    · rintro (old | ⟨active, direct, selected, below⟩)
      · exact Or.inl old
      · rcases exists_record_of_below catalog active below with ⟨record, listed, rfl⟩
        exact Or.inr ⟨record, listed,
          (descendant_iff catalog listed).mpr ⟨active, direct, selected, below⟩, rfl⟩

omit catalog in
/-- What a selection stands for, in the order of the walks. -/
theorem selectedOrInherited_iff {id : ContextId} :
    db.SelectedOrInherited principal app.selectedContextIds flag id ↔
      (id ∈ app.selectedContextIds ∨
        (db.isActive id = true ∧ ∃ direct ∈ app.selectedContextIds, db.StoredAbove id direct)) ∨
      (flag = true ∧ db.isActive id = true ∧
        ∃ direct ∈ app.selectedContextIds, db.VisiblyBelow principal direct id) := by
  constructor
  · rintro ⟨active, selected | above | ⟨descends, below⟩⟩
    · exact Or.inl (Or.inl selected)
    · exact Or.inl (Or.inr ⟨active, above⟩)
    · exact Or.inr ⟨descends, active, below⟩
  · rintro ((selected | ⟨active, above⟩) | ⟨descends, active, below⟩)
    · exact ⟨available.active id selected, Or.inl selected⟩
    · exact ⟨active, Or.inr (Or.inl above)⟩
    · exact ⟨active, Or.inr (Or.inr ⟨descends, below⟩)⟩

/-- The effective contexts of the interface, within a bound that holds every
context the selection stands for. -/
theorem effectiveSelectedContextIds_ok (small : bound.length ≤ maxEffectiveContexts)
    (distinct : app.selectedContextIds.Nodup)
    (descends : ∀ base, app.selectedWithAncestors = .ok base →
      (app.includeDescendants || app.policyIncludesDescendants base) = flag)
    (complete : ∀ id, db.SelectedOrInherited principal app.selectedContextIds flag id → id ∈ bound) :
    ∃ ids, app.effectiveSelectedContextIds = .ok ids ∧ ids.Nodup ∧
      ∀ id, id ∈ ids ↔ db.SelectedOrInherited principal app.selectedContextIds flag id := by
  rcases selectedWithAncestors_ok catalog available small distinct complete with
    ⟨base, baseRan, baseGrows, baseMembers⟩
  have few : ¬ maxEffectiveContexts < app.selectedContextIds.length := by
    have start : ∀ id ∈ app.selectedContextIds, id ∈ bound := fun id selected =>
      complete id ⟨available.active id selected, Or.inl selected⟩
    have counted := (List.subperm_of_subset distinct start).length_le
    omega
  unfold effectiveSelectedContextIds
  rw [if_neg few, baseRan]
  dsimp only [bind, Except.bind]
  rw [descends base baseRan]
  cases flag with
  | false =>
      refine ⟨base, rfl, baseGrows.nodup, fun id => ?_⟩
      rw [baseMembers, selectedOrInherited_iff available]
      simp
  | true =>
      have below : ∀ id, db.isActive id = true →
          (∃ direct ∈ app.selectedContextIds, db.VisiblyBelow principal direct id) → id ∈ bound :=
        fun id active under => complete id ⟨active, Or.inr (Or.inr ⟨rfl, under⟩)⟩
      rcases appendContextDescendants_ok catalog small baseGrows below with
        ⟨ids, ran, grows, members⟩
      refine ⟨ids, ?_, grows.nodup, fun id => ?_⟩
      · rw [if_pos rfl]
        exact ran
      · rw [members, baseMembers, selectedOrInherited_iff available]
        simp

end Selections

/-- On the catalog of the store, the interface expands a selection to the
contexts that the store would expand it to, each of them once. -/
theorem effective_contexts_agree (app : App) (db : Db) (principal : String) {flag : Bool}
    {effective : List ContextDefinition}
    (catalog : app.contextRecords = db.visibleContextRecords principal)
    (distinct : app.selectedContextIds.Nodup)
    (descends : ∀ base, app.selectedWithAncestors = .ok base →
      (app.includeDescendants || app.policyIncludesDescendants base) = flag)
    (expanded : db.expandContextSelection app.selectedContextIds principal flag = .ok effective) :
    ∃ ids, app.effectiveSelectedContextIds = .ok ids ∧ ids.Nodup ∧
      ids.Perm (effective.map (·.id)) := by
  have expansion := Db.expandContextSelection_ok expanded
  rcases Db.available_of_expansion expanded with ⟨available, fits⟩
  have small : (effective.map (·.id)).length ≤ maxEffectiveContexts := by
    have same : {id | db.SelectedOrInherited principal app.selectedContextIds flag id} =
        ((effective.map (·.id)).toFinset : Set ContextId) := by
      ext id
      rw [Set.mem_ofPred_eq, List.coe_toFinset, Set.mem_ofPred_eq, expansion.mem_iff]
    rw [Db.selectionSize, same, Set.ncard_coe_finset,
      List.toFinset_card_of_nodup expansion.nodup] at fits
    exact fits
  rcases effectiveSelectedContextIds_ok catalog available small distinct descends
    (fun id => (expansion.mem_iff id).mpr) with ⟨ids, ran, nodup, members⟩
  refine ⟨ids, ran, nodup, ?_⟩
  apply (List.perm_ext_iff_of_nodup nodup expansion.nodup).mpr
  intro id
  rw [members, expansion.mem_iff]

/-- A store with a group, a task in it and a step of the task. -/
def nestedStore : Db :=
  { Db.empty 1 with
    contexts := ((Table.empty.upsert
      ⟨⟨⟨1⟩, ContextKind.project, "group", "Group", none, "owner", none, none, .active, false, 0,
        0⟩, "group"⟩).upsert
      ⟨⟨⟨2⟩, ContextKind.project, "task", "Task", none, "owner", none, some ⟨1⟩, .active, false, 0,
        0⟩, "task"⟩).upsert
      ⟨⟨⟨3⟩, ContextKind.project, "step", "Step", none, "owner", none, some ⟨2⟩, .active, false, 0,
        0⟩, "step"⟩ }

/-- The task is selected, with its descendants. -/
def taskSelected : App :=
  { App.new (some "owner") with
    contextRecords := nestedStore.visibleContextRecords "owner"
    selectedContextIds := [⟨2⟩]
    includeDescendants := true }

theorem effective_contexts_agree_task :
    ∃ ids, taskSelected.effectiveSelectedContextIds = .ok ids ∧ ids.Nodup ∧
      ids.Perm [⟨2⟩, ⟨1⟩, ⟨3⟩] := by
  have expands : ∃ effective,
      nestedStore.expandContextSelection taskSelected.selectedContextIds "owner" true =
        .ok effective ∧ effective.map (·.id) = [⟨2⟩, ⟨1⟩, ⟨3⟩] := by
    cases ran : nestedStore.expandContextSelection taskSelected.selectedContextIds "owner" true with
    | error error =>
        have succeeds : (nestedStore.expandContextSelection taskSelected.selectedContextIds "owner"
          true).toBool = true := by decide +kernel
        rw [ran] at succeeds
        cases succeeds
    | ok effective =>
        have listed : (nestedStore.expandContextSelection taskSelected.selectedContextIds "owner"
          true).toOption.map (fun effective => effective.map (·.id)) =
            some [⟨2⟩, ⟨1⟩, ⟨3⟩] := by decide +kernel
        rw [ran] at listed
        exact ⟨effective, rfl, Option.some.inj listed⟩
  rcases expands with ⟨effective, expanded, listed⟩
  rw [← listed]
  exact effective_contexts_agree taskSelected nestedStore "owner" rfl (List.nodup_singleton _)
    (fun _ _ => rfl) expanded

end App

end LocalHold
