import LocalHold.Server.GovernedPolicy
import LocalHold.Server.ImplicitContexts
import LocalHold.Store.ExpansionTotal

/-!
# Resolving a created context

A context that a legacy scope has just created stands alone: it has no parent,
nothing lies below it, and no anchor override names it.  Its resolution depends
only on the policies of the empty selection.
-/

namespace LocalHold

open Relational Transition Transition.Checked

variable [Host] [IdentityHost] {db next : Db} {id : ContextId} {principal scope : String}
  {now : Instant}

/-! ## The created row -/

/-- The definition of an implied context. -/
def implicitContext (id : ContextId) (principal scope : String) (now : Instant) :
    ContextDefinition :=
  (implicitRow id principal scope now).context

omit [IdentityHost] in
@[simp]
theorem implicitContext_id : (implicitContext id principal scope now).id = id := by
  dsimp only [implicitContext, implicitRow, ContextCreateDraft.toRow,
    ContextCreateDraft.toDefinition, legacyContextDraft]

omit [IdentityHost] in
@[simp]
theorem implicitContext_descriptor :
    (implicitContext id principal scope now).descriptor =
      ⟨id, ContextKind.custom, scope, legacyScopeDisplayName scope⟩ := by
  dsimp only [ContextDefinition.descriptor, implicitContext, implicitRow, ContextCreateDraft.toRow,
    ContextCreateDraft.toDefinition, legacyContextDraft]

omit [Host] [IdentityHost] in
@[simp]
theorem fetchContextRecord_context {context : ContextDefinition} :
    (db.fetchContextRecord context).context = context :=
  rfl

omit [IdentityHost] in
theorem Db.ImplicitlyCreated.find?_eq (created : db.ImplicitlyCreated id principal scope now next) :
    next.contexts.find? id = some (implicitRow id principal scope now) := by
  rw [Table.find?_insert? created.inserted]
  exact if_pos rfl

omit [IdentityHost] in
theorem Db.ImplicitlyCreated.find?_of_ne (created : db.ImplicitlyCreated id principal scope now next)
    {other : ContextId} (distinct : other ≠ id) :
    next.contexts.find? other = db.contexts.find? other := by
  rw [Table.find?_insert? created.inserted]
  exact if_neg distinct

omit [IdentityHost] in
/-- The owner sees its context. -/
theorem contextVisible_implicitRow {store : Db} :
    store.contextVisible (implicitRow id principal scope now).context principal = true := by
  simp [Db.contextVisible, implicitRow, ContextCreateDraft.toRow, ContextCreateDraft.toDefinition,
    legacyContextDraft]

omit [IdentityHost] in
theorem Db.ImplicitlyCreated.isActive (created : db.ImplicitlyCreated id principal scope now next) :
    next.isActive id = true := by
  rw [Db.isActive, created.find?_eq]
  rfl

omit [IdentityHost] in
/-- Nothing lies above a created context. -/
theorem Db.ImplicitlyCreated.contextParent
    (created : db.ImplicitlyCreated id principal scope now next) : next.contextParent id = none := by
  rw [Db.contextParent, created.find?_eq]
  rfl

omit [IdentityHost] in
/-- Nothing lies below a created context. -/
theorem Db.ImplicitlyCreated.childless (unused : db.Unused id)
    (created : db.ImplicitlyCreated id principal scope now next) (child : ContextId) :
    next.contextParent child ≠ some id := by
  intro linked
  by_cases same : child = id
  · rw [same, created.contextParent] at linked
    cases linked
  · rw [Db.contextParent, created.find?_of_ne same] at linked
    obtain ⟨row, found, named⟩ := Option.bind_eq_some_iff.mp linked
    exact unused.unreferenced (.child row (Table.mem_of_find? found) named)

/-! ## Its expansion -/

omit [IdentityHost] in
theorem Db.ImplicitlyCreated.effectiveIds (unused : db.Unused id)
    (created : db.ImplicitlyCreated id principal scope now next) (flag : Bool) :
    next.effectiveIds [id] principal flag = [id] := by
  have below : recursiveUnion next.contextIds
      (fun parent child => flag && next.visibleChild principal parent child) [id] = [id] := by
    apply recursiveUnion_eq_start (List.nodup_singleton id)
    intro parent parentMem child _
    rw [List.mem_singleton.mp parentMem, Bool.and_eq_false_iff]
    right
    rw [Bool.eq_false_iff]
    intro linked
    exact created.childless unused child (Db.visibleChild_iff.mp linked).1
  rw [Db.effectiveIds, below]
  apply recursiveUnion_eq_start (List.nodup_singleton id)
  intro child childMem parent _
  rw [List.mem_singleton.mp childMem, Bool.eq_false_iff]
  intro linked
  have above := (Db.visibleParent_iff.mp linked).1
  rw [created.contextParent] at above
  cases above

omit [IdentityHost] in
theorem Db.ImplicitlyCreated.selectedEffectiveIds (unused : db.Unused id)
    (created : db.ImplicitlyCreated id principal scope now next) (flag : Bool) :
    next.selectedEffectiveIds [id] principal flag = [id] := by
  have active : ([id].filter next.isActive).take (maxEffectiveContexts + 1) = [id] := by
    rw [List.filter_cons_of_pos created.isActive]
    rfl
  rw [Db.selectedEffectiveIds, created.effectiveIds unused, active]
  apply recursiveUnion_eq_start (List.nodup_singleton id)
  intro child childMem parent _
  rw [List.mem_singleton.mp childMem, Bool.eq_false_iff]
  intro linked
  have above := (Db.visibleParent_iff.mp linked).1
  rw [created.contextParent] at above
  cases above

omit [IdentityHost] in
theorem Db.ImplicitlyCreated.expansionDefinitions (unused : db.Unused id)
    (created : db.ImplicitlyCreated id principal scope now next) (flag : Bool) :
    next.expansionDefinitions [id] principal flag = [implicitContext id principal scope now] := by
  have selected : next.contexts.select (fun row => decide (row.context.id ∈ [id])) =
      [implicitRow id principal scope now] := by
    apply Table.select_eq_singleton created.find?_eq
    · simp [implicitRow, ContextCreateDraft.toRow, ContextCreateDraft.toDefinition,
        legacyContextDraft]
    · intro other _ named
      simpa using named
  rw [Db.expansionDefinitions, created.selectedEffectiveIds unused, selected]
  rfl

omit [Host] [IdentityHost] in
/-- The expansion of one active context without a parent. -/
theorem expandContextDefinitions_root {context : ContextDefinition}
    (named : context.id = id) (active : context.lifecycle = .active)
    (root : context.parentId = none) (flag : Bool) :
    expandContextDefinitions [context] [id] flag = .ok [context] := by
  have defined : definitionById [context] id = some context := by
    simp [definitionById, named]
  have chain : directWithAncestors [context] id = .ok [context] := by
    rw [directWithAncestors, defined]
    simp only [active, root, activeAncestors]
    rfl
  have chains : [id].mapM (directWithAncestors [context]) = .ok [[context]] := by
    rw [List.mapM_cons, chain]
    rfl
  have below : requestedDescendants [context] [id] flag = .ok [] := by
    have candidate : descendantCandidate [context] [id] context = .ok none := by
      rw [descendantCandidate, root]
      rfl
    cases flag with
    | false => rfl
    | true =>
        rw [requestedDescendants, if_pos rfl, activeDefinitions,
          List.filter_cons_of_pos (by rw [active]; rfl), List.filter_nil, List.filterMapM_cons,
          candidate]
        rfl
  have bounded : (activeDefinitions [context]).length ≤ maxEffectiveContexts :=
    le_trans (List.length_filter_le _ _) (by simp [maxEffectiveContexts])
  rw [expandContextDefinitions, decide_eq_true bounded, chains, below]
  rfl

omit [IdentityHost] in
/-- A created context expands to itself. -/
theorem Db.ImplicitlyCreated.expansion (unused : db.Unused id)
    (created : db.ImplicitlyCreated id principal scope now next) (flag : Bool) :
    next.expandContextSelection [id] principal flag =
      .ok [implicitContext id principal scope now] := by
  have selectable : next.requireSelectable principal id = .ok () :=
    Db.requireSelectable_of_available
      ⟨_, created.find?_eq, contextVisible_implicitRow⟩ created.isActive
  have required : [id].mapM (next.requireSelectable principal) = .ok [()] := by
    rw [List.mapM_cons, selectable]
    rfl
  rw [Db.expandContextSelection, required, created.expansionDefinitions unused]
  exact @expandContextDefinitions_root id (implicitContext id principal scope now) rfl rfl rfl flag

/-! ## Its policies -/

omit [IdentityHost] in
/-- Creating the context of a scope changes no policy that its owner is under. -/
theorem Db.ImplicitlyCreated.contextPolicyState (unused : db.Unused id)
    (created : db.ImplicitlyCreated id principal scope now next) :
    next.contextPolicyState principal = db.contextPolicyState principal := by
  have kinds : next.listContextKinds = db.listContextKinds := by
    rw [created.written]
    rfl
  have layers : next.listContextKindPolicies principal = db.listContextKindPolicies principal := by
    rw [created.written]
    rfl
  have grants : next.contextGrants = db.contextGrants := by
    rw [created.written]
  have stored : next.anchorPolicies = db.anchorPolicies := by
    rw [created.written]
  have anchors : next.listContextAnchorPolicies principal =
      db.listContextAnchorPolicies principal := by
    rw [Db.listContextAnchorPolicies, Db.listContextAnchorPolicies, stored]
    apply congrArg
    apply List.filter_congr
    intro row rowMem
    have other : row.anchorContextId ≠ id :=
      fun same => unused.unreferenced (.anchorPolicy row rowMem same)
    rw [created.find?_of_ne other]
    simp only [Db.contextVisible, grants]
  rw [Db.contextPolicyState, Db.contextPolicyState, kinds, layers, anchors]

omit [Host] [IdentityHost] in
/-- No override names an unused context, whatever the records say about it. -/
theorem Db.Unused.effectivePolicyFor (unused : db.Unused id) (records : List ContextRecord)
    (kind : ContextKind) :
    LocalHold.effectivePolicyFor (db.contextPolicyState principal) records kind [id] =
      LocalHold.effectivePolicyFor (db.contextPolicyState principal) [] kind [] := by
  have unanchored : ∀ ids : List ContextId, (∀ listed ∈ ids, listed = id) →
      activeAnchorRecords kind (db.listContextAnchorPolicies principal) ids = [] := by
    intro ids onlyNew
    apply List.filter_eq_nil_iff.mpr
    intro record listed active
    rw [Bool.and_eq_true, decide_eq_true_eq] at active
    have stored := Db.contains_of_mem_listContextAnchorPolicies listed
    rw [onlyNew _ active.1, unused.absent] at stored
    cases stored
  apply evaluateEffectiveContextPolicy_congr
  change specificAnchorRecords kind (db.listContextAnchorPolicies principal) records [id] =
    specificAnchorRecords kind (db.listContextAnchorPolicies principal) [] []
  rw [specificAnchorRecords, specificAnchorRecords, unanchored [id] (by simp),
    unanchored [] (by simp)]
  rfl

omit [Host] [IdentityHost] in
theorem Db.Unused.effectivePolicies (unused : db.Unused id) (records : List ContextRecord) :
    LocalHold.effectivePolicies (db.contextPolicyState principal) records [id] =
      LocalHold.effectivePolicies (db.contextPolicyState principal) [] [] := by
  rw [LocalHold.effectivePolicies, LocalHold.effectivePolicies]
  apply List.map_congr_left
  intro definition _
  exact unused.effectivePolicyFor records definition.kind

/-! ## Its resolution -/

omit [IdentityHost] in
/-- A created context is found by its identifier. -/
theorem Db.ImplicitlyCreated.findContextRecords
    (created : db.ImplicitlyCreated id principal scope now next) :
    next.findContextRecords principal false (.id id) =
      [next.fetchContextRecord (implicitContext id principal scope now)] := by
  have selected : next.contexts.select (fun row =>
      next.contextVisible row.context principal && next.answersLookup (.id id) row &&
        (false || row.context.lifecycle == .active)) = [implicitRow id principal scope now] := by
    apply Table.select_eq_singleton created.find?_eq
    · rw [contextVisible_implicitRow]
      simp [Db.answersLookup, implicitRow, ContextCreateDraft.toRow,
        ContextCreateDraft.toDefinition, legacyContextDraft]
    · intro other _ found
      simp only [Db.answersLookup, Bool.and_eq_true, beq_iff_eq] at found
      exact found.1.2
  rw [Db.findContextRecords, selected]
  rfl

/-- The envelope that names one context by its identifier. -/
def idEnvelope (id : ContextId) : ContextEnvelope :=
  { ContextEnvelope.default with refs := [ContextReference.byId id] }

/-- The lookups of a created context select it and nothing else. -/
theorem Db.ImplicitlyCreated.lookupSelection
    (created : db.ImplicitlyCreated id principal scope now next) :
    LocalHold.lookupSelection next principal (idEnvelope id) none =
      .ok (SelectionState.start.select
        (next.fetchContextRecord (implicitContext id principal scope now))) := by
  have referenced : resolveReference next principal SelectionState.start
      (ContextReference.byId id) = .ok (SelectionState.start.select
        (next.fetchContextRecord (implicitContext id principal scope now))) := by
    rw [resolveReference, show exactContextLookup (ContextReference.byId id) = .ok (.id id) from rfl]
    simp only [bind, Except.bind, created.findContextRecords]
    rfl
  rw [LocalHold.lookupSelection, show (idEnvelope id).refs = [ContextReference.byId id] from rfl,
    List.foldlM_cons, referenced]
  rfl

/-- The policy checks on a created context. -/
def checkImplicitPolicies (db : Db) (principal field : String) : Except ToolError Unit :=
  checkPolicies field (effectivePolicies (db.contextPolicyState principal) [] [])
    [ContextKind.custom] [ContextKind.custom] true []

/-- The lookups end with one direct context. -/
structure SelectsOnly (state : SelectionState) (record : ContextRecord) : Prop where
  directIds : state.directIds = [record.context.id]
  resolved : state.directIds.filterMap state.resolved.find? = [record]
  candidates : state.candidates = []
  located : state.unresolvedExplicitRef = false

omit [Host] [IdentityHost] in
theorem selectsOnly_start (record : ContextRecord) :
    SelectsOnly (SelectionState.start.select record) record := by
  have directIds : (SelectionState.start.select record).directIds = [record.context.id] := by
    simp [SelectionState.select, SelectionState.start]
  refine ⟨directIds, ?_, rfl, rfl⟩
  rw [directIds]
  simp [SelectionState.select, SelectionState.start, Table.find?_upsert]

/-- A created context resolves to the selection that a preview promises, where
the policies of the empty selection admit it. -/
theorem Db.ImplicitlyCreated.resolveById (unused : db.Unused id)
    (created : db.ImplicitlyCreated id principal scope now next) :
    next.resolveById principal id true =
      (checkImplicitPolicies db principal "context").map fun _ =>
        previewSelection (legacyContextDraft id principal scope)
          (LocalHold.effectivePolicies (db.contextPolicyState principal) [] []) := by
  have lookedUp := created.lookupSelection
  generalize stateEq : SelectionState.start.select
    (next.fetchContextRecord (implicitContext id principal scope now)) = state at lookedUp
  have only : SelectsOnly state
      (next.fetchContextRecord (implicitContext id principal scope now)) :=
    stateEq ▸ selectsOnly_start _
  have directIds : state.directIds = [id] := only.directIds
  have validated : validateResolutionRequest (idEnvelope id) none = .ok () := by
    rfl
  have expanded : expandFinal next principal (db.contextPolicyState principal) (idEnvelope id)
      state = .ok [implicitContext id principal scope now] := by
    rw [expandFinal, directIds, created.expansion unused, created.expansion unused]
    simp only [Except.mapError, bind, Except.bind, pure, Except.pure, ite_self]
  have policies : LocalHold.effectivePolicies (db.contextPolicyState principal)
      (policyRecords [implicitContext id principal scope now])
        ([implicitContext id principal scope now].map (·.id)) =
      LocalHold.effectivePolicies (db.contextPolicyState principal) [] [] :=
    unused.effectivePolicies _
  have kinds : state.directKinds = [ContextKind.custom] := by
    rw [SelectionState.directKinds, only.resolved]
    rfl
  have finished : finishSelection next principal (db.contextPolicyState principal) (idEnvelope id)
      none true state =
      resolvePolicies next principal (db.contextPolicyState principal) (idEnvelope id) true
        state := by
    rw [finishSelection, only.located, directIds]
    rfl
  rw [Db.resolveById, Db.resolveContextSelection]
  change (do
    validateResolutionRequest (idEnvelope id) none
    let state ← LocalHold.lookupSelection next principal (idEnvelope id) none
    finishSelection next principal (next.contextPolicyState principal) (idEnvelope id) none true
      state) = _
  rw [validated, lookedUp, created.contextPolicyState unused]
  simp only [bind, Except.bind]
  rw [finished, resolvePolicies, expanded]
  simp only [bind, Except.bind]
  rw [policies, kinds, only.candidates, only.resolved, directIds, checkImplicitPolicies]
  rw [show [implicitContext id principal scope now].map (·.kind) = [ContextKind.custom] from rfl]
  cases checkPolicies "context" (LocalHold.effectivePolicies (db.contextPolicyState principal) [] [])
    [ContextKind.custom] [ContextKind.custom] true [] with
  | error error => rfl
  | ok done =>
      simp only [Except.map, previewSelection, List.map_cons, List.map_nil,
        implicitContext_descriptor, implicitContext_id, fetchContextRecord_context,
        legacyContextDraft]
      rfl

end LocalHold
