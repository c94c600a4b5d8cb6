import LocalHold.Server.GovernedPolicy

/-!
# The most specific anchors

A policy evaluation keeps the anchor overrides that no other override of the
selection lies below.  The test climbs the parents of the effective contexts
only, so an archived context between two anchors hides that one lies below the
other.
-/

namespace LocalHold

open Relational Hierarchy Transition.Checked

/-! ## The ancestor test -/

theorem ancestorWalk_eq_searchUp (records : List ContextRecord) (ancestor : ContextId)
    (fuel : Nat) (visited : List ContextId) (cursor : Option ContextId) :
    ancestorWalk records ancestor fuel visited cursor =
      searchUp (recordParent records) ancestor fuel visited cursor := by
  induction fuel generalizing visited cursor with
  | zero => rfl
  | succ fuel inductionHypothesis =>
      cases cursor with
      | none => rfl
      | some node => simp only [ancestorWalk, searchUp, inductionHypothesis]

/-- The walk decides ancestry in the hierarchy that the records state. -/
theorem contextIsAncestor_iff {records : List ContextRecord} {ancestor descendant : ContextId} :
    contextIsAncestor records ancestor descendant = true ↔
      Above (recordParent records) ancestor descendant := by
  rw [contextIsAncestor, ancestorWalk_eq_searchUp]
  have parentsMem : ∀ child up, recordParent records child = some up →
      up ∈ records.filterMap (·.context.parentId) := by
    intro child up linked
    obtain ⟨record, found, parent⟩ := Option.bind_eq_some_iff.mp linked
    have member := List.mem_reverse.mp (List.mem_of_find?_eq_some found)
    exact List.mem_filterMap.mpr ⟨record, member, parent⟩
  apply searchUp_parent_iff parentsMem
  have bounded := List.length_filterMap_le (fun record : ContextRecord => record.context.parentId)
    records
  omega

variable {db : Db} {principal : String} {directIds : List ContextId} {flag : Bool}
  {effective : List ContextDefinition}

/-- The records of an expansion state the stored parents of its contexts. -/
theorem Expansion.recordParent_eq_some_iff
    (expansion : Expansion db principal directIds flag effective) {id up : ContextId} :
    recordParent (policyRecords effective) id = some up ↔
      db.SelectedOrInherited principal directIds flag id ∧ db.contextParent id = some up := by
  have linked : ∀ context ∈ effective, db.contextParent context.id = context.parentId := by
    intro context member
    obtain ⟨row, rowMem, rfl⟩ := expansion.stored context member
    rw [Db.contextParent, Table.find?_eq_some_iff.mpr ⟨rowMem, rfl⟩, Option.bind_some]
  constructor
  · intro stated
    obtain ⟨record, found, parent⟩ := Option.bind_eq_some_iff.mp stated
    have member := List.mem_reverse.mp (List.mem_of_find?_eq_some found)
    obtain ⟨context, contextMem, rfl⟩ := List.mem_map.mp member
    have same : context.id = id := by simpa using List.find?_some found
    subst same
    exact ⟨(expansion.mem_iff _).mp (List.mem_map_of_mem contextMem),
      (linked context contextMem).trans parent⟩
  · rintro ⟨selected, parent⟩
    obtain ⟨context, contextMem, rfl⟩ := List.mem_map.mp ((expansion.mem_iff id).mpr selected)
    rw [recordParent]
    cases found : (policyRecords effective).reverse.find? fun record =>
        record.context.id = context.id with
    | none =>
        have absent := List.find?_eq_none.mp found ⟨context, [], [], []⟩
          (List.mem_reverse.mpr (List.mem_map.mpr ⟨context, contextMem, rfl⟩))
        simp at absent
    | some record =>
        have member := List.mem_reverse.mp (List.mem_of_find?_eq_some found)
        obtain ⟨other, otherMem, rfl⟩ := List.mem_map.mp member
        have same : other.id = context.id := by simpa using List.find?_some found
        rw [Option.bind_some]
        change other.parentId = some up
        rw [← linked other otherMem, same]
        exact parent

/-! ## Chains without archived contexts -/

/-- The stored parent of a context, where that parent is active. -/
def Db.activeParent (db : Db) (id : ContextId) : Option ContextId :=
  (db.contextParent id).filter db.isActive

/-- A context lies above another and no context between them is archived. -/
def Db.ActivelyAbove (db : Db) (ancestor node : ContextId) : Prop :=
  Above db.activeParent ancestor node

theorem Db.activeParent_eq_some_iff {id up : ContextId} :
    db.activeParent id = some up ↔ db.contextParent id = some up ∧ db.isActive up = true := by
  rw [Db.activeParent, Option.filter_eq_some_iff]

theorem Db.ActivelyAbove.storedAbove {ancestor node : ContextId}
    (above : db.ActivelyAbove ancestor node) : db.StoredAbove ancestor node :=
  Relation.TransGen.mono (fun _ _ linked => (Db.activeParent_eq_some_iff.mp linked).1) _ _ above

/-- Between contexts of a selection, the test finds the ancestors that no
archived context separates. -/
theorem Expansion.contextIsAncestor_iff
    (expansion : Expansion db principal directIds flag effective)
    {ancestor node : ContextId} (selected : db.SelectedOrInherited principal directIds flag node)
    (active : db.isActive ancestor = true) :
    contextIsAncestor (policyRecords effective) ancestor node = true ↔
      db.ActivelyAbove ancestor node := by
  rw [LocalHold.contextIsAncestor_iff]
  constructor
  · intro above
    induction above using Relation.TransGen.head_induction_on with
    | single linked =>
        have stored := (expansion.recordParent_eq_some_iff.mp linked).2
        exact Above.of_parent (Db.activeParent_eq_some_iff.mpr ⟨stored, active⟩)
    | head linked further inductionHypothesis =>
        obtain ⟨_, further, _⟩ := Relation.TransGen.head'_iff.mp further
        have middle := (expansion.recordParent_eq_some_iff.mp further).1
        have stored := (expansion.recordParent_eq_some_iff.mp linked).2
        exact Above.trans (inductionHypothesis middle)
          (Above.of_parent (Db.activeParent_eq_some_iff.mpr ⟨stored, middle.1⟩))
  · intro above
    induction above using Relation.TransGen.head_induction_on with
    | single linked =>
        have stored := (Db.activeParent_eq_some_iff.mp linked).1
        exact Above.of_parent (expansion.recordParent_eq_some_iff.mpr ⟨selected, stored⟩)
    | head linked _ inductionHypothesis =>
        obtain ⟨stored, middleActive⟩ := Db.activeParent_eq_some_iff.mp linked
        have middle := selected.of_above (Above.of_parent stored) middleActive
        exact Above.trans (inductionHypothesis middle)
          (Above.of_parent (expansion.recordParent_eq_some_iff.mpr ⟨selected, stored⟩))

/-! ## Participating overrides -/

/-- The overrides for a kind that take part in the policy of a selection. -/
def Db.participatingAnchors (db : Db) (principal : String) (effectiveIds : List ContextId)
    (kind : ContextKind) : List ContextAnchorPolicyRecord :=
  specificAnchorRecords kind (db.listContextAnchorPolicies principal)
    (policyRecords (db.definitionsOf effectiveIds)) effectiveIds

/-- An override for a kind that is visible to the principal and whose anchor is
selected or inherited. -/
structure Db.SelectedOverride (db : Db) (principal : String) (directIds : List ContextId)
    (flag : Bool) (kind : ContextKind) (record : ContextAnchorPolicyRecord) : Prop where
  listed : record ∈ db.listContextAnchorPolicies principal
  stated : (record.policy.get kind).isSome = true
  selected : db.SelectedOrInherited principal directIds flag record.anchorContextId

/-- The intended choice: no other selected override has its anchor below. -/
structure Db.MostSpecific (db : Db) (principal : String) (directIds : List ContextId)
    (flag : Bool) (kind : ContextKind) (record : ContextAnchorPolicyRecord) : Prop where
  override : db.SelectedOverride principal directIds flag kind record
  lowest : ∀ other, db.SelectedOverride principal directIds flag kind other →
    other.anchorContextId ≠ record.anchorContextId →
    ¬db.StoredAbove record.anchorContextId other.anchorContextId

/-- Where an override has another one below it, it has one below it that no
archived context separates from it. -/
def Db.AnchorsUnseparated (db : Db) (principal : String) (directIds : List ContextId)
    (flag : Bool) (kind : ContextKind) : Prop :=
  ∀ record, db.SelectedOverride principal directIds flag kind record →
    ∀ lower, db.SelectedOverride principal directIds flag kind lower →
    lower.anchorContextId ≠ record.anchorContextId →
    db.StoredAbove record.anchorContextId lower.anchorContextId →
    ∃ near, db.SelectedOverride principal directIds flag kind near ∧
      near.anchorContextId ≠ record.anchorContextId ∧
      db.ActivelyAbove record.anchorContextId near.anchorContextId

variable {kind : ContextKind} {record : ContextAnchorPolicyRecord}

theorem Expansion.mem_activeAnchorRecords_iff
    (expansion : Expansion db principal directIds flag effective) :
    record ∈ activeAnchorRecords kind (db.listContextAnchorPolicies principal)
        (effective.map (·.id)) ↔
      db.SelectedOverride principal directIds flag kind record := by
  rw [activeAnchorRecords, List.mem_filter, Bool.and_eq_true, decide_eq_true_eq,
    expansion.mem_iff]
  constructor
  · rintro ⟨listed, selected, stated⟩
    exact ⟨listed, stated, selected⟩
  · rintro ⟨listed, stated, selected⟩
    exact ⟨listed, selected, stated⟩

/-- The code keeps the overrides below which no other one is reached without
passing an archived context. -/
theorem Expansion.mem_participatingAnchors_iff
    (expansion : Expansion db principal directIds flag effective) :
    record ∈ db.participatingAnchors principal (effective.map (·.id)) kind ↔
      db.SelectedOverride principal directIds flag kind record ∧
        ∀ other, db.SelectedOverride principal directIds flag kind other →
          other.anchorContextId ≠ record.anchorContextId →
          ¬db.ActivelyAbove record.anchorContextId other.anchorContextId := by
  rw [Db.participatingAnchors, Db.definitionsOf_map_id expansion.stored, specificAnchorRecords,
    List.mem_filter, expansion.mem_activeAnchorRecords_iff]
  apply and_congr_right
  intro override
  rw [Bool.not_eq_true', List.any_eq_false]
  constructor
  · intro none other otherOverride distinct above
    have kept := none other.anchorContextId
      (List.mem_map_of_mem (expansion.mem_activeAnchorRecords_iff.mpr otherOverride))
    rw [Bool.and_eq_true, bne_iff_ne,
      expansion.contextIsAncestor_iff otherOverride.selected override.selected.1] at kept
    exact kept ⟨distinct, above⟩
  · intro none id member
    obtain ⟨other, otherMem, rfl⟩ := List.mem_map.mp member
    have otherOverride := expansion.mem_activeAnchorRecords_iff.mp otherMem
    rw [Bool.and_eq_true, bne_iff_ne,
      expansion.contextIsAncestor_iff otherOverride.selected override.selected.1]
    rintro ⟨distinct, above⟩
    exact none other otherOverride distinct above

/-- The overrides that take part are the most specific ones exactly where no
archived context separates an override from all the overrides below it. -/
theorem Expansion.participating_iff_unseparated
    (expansion : Expansion db principal directIds flag effective) :
    (∀ record, record ∈ db.participatingAnchors principal (effective.map (·.id)) kind ↔
        db.MostSpecific principal directIds flag kind record) ↔
      db.AnchorsUnseparated principal directIds flag kind := by
  constructor
  · intro exact_ record override lower lowerOverride distinct above
    by_contra separated
    have participates := expansion.mem_participatingAnchors_iff.mpr
      ⟨override, fun near nearOverride nearDistinct nearAbove =>
        separated ⟨near, nearOverride, nearDistinct, nearAbove⟩⟩
    exact ((exact_ record).mp participates).lowest lower lowerOverride distinct above
  · intro unseparated record
    rw [expansion.mem_participatingAnchors_iff]
    constructor
    · rintro ⟨override, none⟩
      refine ⟨override, fun lower lowerOverride distinct above => ?_⟩
      obtain ⟨near, nearOverride, nearDistinct, nearAbove⟩ :=
        unseparated record override lower lowerOverride distinct above
      exact none near nearOverride nearDistinct nearAbove
    · intro specific
      exact ⟨specific.override, fun other otherOverride distinct above =>
        specific.lowest other otherOverride distinct above.storedAbove⟩

/-! ## The selections that the server resolves -/

theorem Expansion.empty (db : Db) (principal : String) (flag : Bool) :
    Expansion db principal [] flag [] := by
  refine ⟨fun _ absent => absurd absent List.not_mem_nil, List.nodup_nil, fun id => ?_⟩
  simp [Db.SelectedOrInherited]

/-- The effective contexts of a selection are the expansion of its direct ones. -/
def Db.SelectsAs (db : Db) (principal : String) (asked : Bool)
    (selection : ResolvedContextSelection) : Prop :=
  ∃ effective, selection.effectiveIds = effective.map (·.id) ∧
    Expansion db principal selection.directIds
      (db.selectsDescendants principal asked selection.directIds) effective

/-- A selection without contexts. -/
def ResolvedContextSelection.Contextless (selection : ResolvedContextSelection) : Prop :=
  selection.directIds = [] ∧ selection.effectiveIds = []

theorem contextless_of_settleEmpty {envelope : ContextEnvelope} {query : Option String}
    {governedWrite : Bool} {guidance : List String} {state : SelectionState}
    {outcome : EmptyOutcome}
    (ran : settleEmpty envelope query governedWrite guidance state = .ok outcome) :
    (∃ selection, outcome = .done selection ∧ selection.Contextless) ∨
      outcome = .proceed state := by
  rw [settleEmpty] at ran
  split at ran
  · split at ran
    · cases ran
      exact Or.inl ⟨_, rfl, rfl, rfl⟩
    · split at ran
      · cases ran
      · cases ran
        exact Or.inl ⟨_, rfl, rfl, rfl⟩
  · cases ran
    exact Or.inr rfl

/-- An empty selection stays without contexts or is filled from the defaults. -/
theorem contextless_of_resolveEmpty {policyState : ContextPolicyState}
    {envelope : ContextEnvelope} {query : Option String} {governedWrite : Bool}
    {state : SelectionState} {outcome : EmptyOutcome} (sound : state.Sound db principal)
    (ran : resolveEmpty db principal policyState envelope query governedWrite state =
      .ok outcome) :
    (∃ selection, outcome = .done selection ∧ selection.Contextless) ∨
      ∃ next, outcome = .proceed next ∧ next.Sound db principal := by
  rw [resolveEmpty] at ran
  obtain ⟨_, ran⟩ := of_ensure_bind ran
  split at ran
  · cases ran
    exact Or.inl ⟨_, rfl, rfl, rfl⟩
  · split at ran
    · obtain ⟨defaulted, defaultedRan, settled⟩ := bind_eq_ok.mp ran
      refine (contextless_of_settleEmpty settled).imp_right fun proceeds => ?_
      exact ⟨defaulted, proceeds, sound_of_selectDefaults sound defaultedRan⟩
    · exact (contextless_of_settleEmpty ran).imp_right fun proceeds => ⟨state, proceeds, sound⟩

variable [Host] [IdentityHost]

/-- A resolved selection has no contexts or went through the policy phase. -/
theorem Db.contextless_of_resolveContextSelection {requested : Option ContextEnvelope}
    {query : Option String} {governedWrite : Bool} {selection : ResolvedContextSelection}
    (ran : db.resolveContextSelection principal requested query governedWrite = .ok selection) :
    selection.Contextless ∨ ∃ state : SelectionState, state.Sound db principal ∧
      resolvePolicies db principal (db.contextPolicyState principal)
        (requested.getD ContextEnvelope.default) governedWrite state = .ok selection := by
  rw [Db.resolveContextSelection] at ran
  obtain ⟨_, _, ran⟩ := bind_eq_ok.mp ran
  split at ran
  · cases ran
    exact Or.inl ⟨rfl, rfl⟩
  · obtain ⟨state, lookedUp, ran⟩ := bind_eq_ok.mp ran
    have sound := sound_of_lookupSelection lookedUp
    rw [finishSelection] at ran
    obtain ⟨_, ran⟩ := of_ensure_bind ran
    split at ran
    · obtain ⟨outcome, emptyRan, ran⟩ := bind_eq_ok.mp ran
      obtain ⟨_, rfl, contextless⟩ | ⟨next, rfl, nextSound⟩ :=
        contextless_of_resolveEmpty sound emptyRan
      · cases ran
        exact Or.inl contextless
      · exact Or.inr ⟨next, nextSound, ran⟩
    · exact Or.inr ⟨state, sound, ran⟩

theorem Db.selectsAs_of_resolveContextSelection {requested : Option ContextEnvelope}
    {query : Option String} {governedWrite : Bool} {selection : ResolvedContextSelection}
    (ran : db.resolveContextSelection principal requested query governedWrite = .ok selection) :
    db.SelectsAs principal (requested.getD ContextEnvelope.default).includeDescendants
      selection := by
  obtain ⟨directIds, effectiveIds⟩ | ⟨state, sound, ran⟩ :=
    Db.contextless_of_resolveContextSelection ran
  · refine ⟨[], effectiveIds, ?_⟩
    rw [directIds]
    exact Expansion.empty db principal _
  · rw [resolvePolicies] at ran
    obtain ⟨effective, expandedRan, ran⟩ := bind_eq_ok.mp ran
    obtain ⟨_, _, done⟩ := bind_eq_ok.mp ran
    cases done
    exact ⟨effective, rfl, Db.expandContextSelection_ok (sound.expandFinal_ok expandedRan)⟩

/-- Every way in which the server resolves a selection: from an envelope, for a
read or a write and with a query or without, or from a legacy scope in one of
the three modes.  The index tells whether descendants were asked for. -/
inductive Db.Resolves (db : Db) (newId : ContextId) (principal : String) (now : Instant) :
    Bool → ResolvedContextSelection → Db → Prop where
  | envelope {requested : Option ContextEnvelope} {query : Option String} {governedWrite : Bool}
      {selection : ResolvedContextSelection}
      (ran : db.resolveContextSelection principal requested query governedWrite =
        .ok selection) :
      db.Resolves newId principal now
        (requested.getD ContextEnvelope.default).includeDescendants selection db
  | legacy {resolution : ScopeResolution} {mode : LegacyContextResolutionMode}
      {selection : ResolvedContextSelection} {next : Db}
      (ran : db.resolveLegacyContextSelection newId principal resolution mode now =
        (.ok selection, next)) :
      db.Resolves newId principal now false selection next

theorem Db.selectsAs_of_resolveById {id : ContextId} {governedWrite : Bool}
    {selection : ResolvedContextSelection}
    (ran : db.resolveById principal id governedWrite = .ok selection) :
    db.SelectsAs principal false selection :=
  Db.selectsAs_of_resolveContextSelection ran

theorem Db.selectsAs_of_createAndResolve {draft : ContextCreateDraft} {audit : ContextAuditDraft}
    {governedWrite : Bool} {now : Instant} {selection : ResolvedContextSelection} {next : Db}
    (ran : db.createAndResolve principal draft audit governedWrite now = (.ok selection, next)) :
    next.SelectsAs principal false selection := by
  rw [Db.createAndResolve] at ran
  split at ran
  · split at ran
    · rename_i found resolved
      cases ran
      have selects : next.SelectsAs principal false found := Db.selectsAs_of_resolveById resolved
      exact selects
    · split at ran <;> cases ran
  · split at ran
    · obtain ⟨resolved, rfl⟩ := Prod.mk.inj ran
      exact Db.selectsAs_of_resolveById resolved
    · cases ran

/-- A legacy resolution that ends while reading is a broad read or a preview. -/
theorem Db.done_of_legacyTarget {newId : ContextId} {resolution : ScopeResolution}
    {mode : LegacyContextResolutionMode} {selection : ResolvedContextSelection}
    (ran : db.legacyTarget newId principal resolution mode = .ok (.done selection)) :
    db.SelectsAs principal false selection ∨
      selection.directIds = [newId] ∧ selection.effectiveIds = [newId] := by
  rw [Db.legacyTarget] at ran
  obtain ⟨_, ran⟩ := of_ensure_bind ran
  split at ran
  · obtain ⟨_, ran⟩ := of_ensure_bind ran
    obtain ⟨broad, resolved, done⟩ := bind_eq_ok.mp ran
    cases done
    have selects : db.SelectsAs principal false broad :=
      Db.selectsAs_of_resolveContextSelection resolved
    exact Or.inl selects
  · split at ran
    · cases ran
    · split at ran
      · obtain ⟨_, _, absent⟩ | ⟨draft, drawn, _, _, previewed⟩ := legacyCreation_cases ran
        · cases absent
        · cases done_of_previewCreation previewed
          subst drawn
          exact Or.inr ⟨rfl, rfl⟩
      · cases ran
    · cases ran

theorem Db.Resolves.selectsAs {newId : ContextId} {now : Instant} {asked : Bool}
    {selection : ResolvedContextSelection} {next : Db}
    (resolves : db.Resolves newId principal now asked selection next) :
    next.SelectsAs principal asked selection ∨
      next = db ∧ selection.directIds = [newId] ∧ selection.effectiveIds = [newId] := by
  cases resolves with
  | envelope ran => exact Or.inl (Db.selectsAs_of_resolveContextSelection ran)
  | legacy ran =>
      rw [Db.resolveLegacyContextSelection] at ran
      split at ran
      · cases ran
      · rename_i target
        cases ran
        exact (Db.done_of_legacyTarget target).imp_right fun preview => ⟨rfl, preview⟩
      · obtain ⟨resolved, rfl⟩ := Prod.mk.inj ran
        exact Or.inl (Db.selectsAs_of_resolveById resolved)
      · exact Or.inl (Db.selectsAs_of_createAndResolve ran)

omit [Host] [IdentityHost] in
/-- Nothing is selected or inherited through a context that is not stored. -/
theorem Db.not_selectedOrInherited_of_fresh {newId id : ContextId} {asked : Bool}
    (fresh : db.contexts.contains newId = false) :
    ¬db.SelectedOrInherited principal [newId]
      (db.selectsDescendants principal asked [newId]) id := by
  have absent : db.contexts.find? newId = none := by
    rw [Table.contains, Option.isSome_eq_false_iff, Option.isNone_iff_eq_none] at fresh
    exact fresh
  have narrow : db.selectsDescendants principal asked [newId] = false := by
    have refused : db.expandContextSelection [newId] principal false =
        .error (contextNotGranted newId) := by
      simp [Db.expandContextSelection, Db.requireSelectable, Db.fetchContextAuthorized, absent]
      rfl
    rw [Db.selectsDescendants, refused]
  rw [narrow]
  rintro ⟨active, direct | ⟨direct, directMem, above⟩ | ⟨flagged, _⟩⟩
  · cases List.mem_singleton.mp direct
    rw [Db.isActive, absent] at active
    cases active
  · cases List.mem_singleton.mp directMem
    refine not_above_of_parent_none ?_ above
    rw [Db.contextParent, absent, Option.bind_none]
  · cases flagged

omit [Host] [IdentityHost] in
/-- The policy of a previewed context has no overrides. -/
theorem Db.participatingAnchors_of_fresh {newId : ContextId}
    (fresh : db.contexts.contains newId = false) :
    record ∉ db.participatingAnchors principal [newId] kind := by
  intro participates
  have kept := (List.mem_filter.mp participates).1
  obtain ⟨listed, selected⟩ := List.mem_filter.mp kept
  have stored := Db.contains_of_mem_listContextAnchorPolicies listed
  rw [Bool.and_eq_true, decide_eq_true_eq, List.mem_singleton] at selected
  rw [selected.1, fresh] at stored
  cases stored

/-- In the policies of every selection that the server resolves, the most
specific overrides take part exactly where no archived context separates an
override from all the overrides below it. -/
theorem most_specific_anchors_iff_unseparated {newId : ContextId} {now : Instant} {asked : Bool}
    {selection : ResolvedContextSelection} {next : Db}
    (fresh : db.contexts.contains newId = false)
    (resolves : db.Resolves newId principal now asked selection next) (kind : ContextKind) :
    let flag := next.selectsDescendants principal asked selection.directIds
    (∀ record, record ∈ next.participatingAnchors principal selection.effectiveIds kind ↔
        next.MostSpecific principal selection.directIds flag kind record) ↔
      next.AnchorsUnseparated principal selection.directIds flag kind := by
  obtain ⟨effective, effectiveIds, expansion⟩ | ⟨rfl, direct, effective⟩ := resolves.selectsAs
  · rw [effectiveIds]
    exact expansion.participating_iff_unseparated
  · rw [direct, effective]
    constructor
    · intro _ record override
      exact absurd override.selected (Db.not_selectedOrInherited_of_fresh fresh)
    · intro _ record
      constructor
      · exact fun participates => absurd participates (Db.participatingAnchors_of_fresh fresh)
      · exact fun specific => absurd specific.override.selected
          (Db.not_selectedOrInherited_of_fresh fresh)

/-! ## Three projects in a chain -/

omit [Host] [IdentityHost] in
/-- Nothing separates anchors where no context is archived. -/
theorem Db.anchorsUnseparated_of_active
    (active : ∀ row ∈ db.contexts, row.context.lifecycle = .active) :
    db.AnchorsUnseparated principal directIds flag kind := by
  intro record override lower lowerOverride distinct above
  refine ⟨lower, lowerOverride, distinct, ?_⟩
  have storedActive : ∀ id up, db.contextParent id = some up → db.isActive id = true := by
    intro id up linked
    obtain ⟨row, found, _⟩ := Option.bind_eq_some_iff.mp linked
    rw [Db.isActive, found, Option.any_some, active row (Table.find?_eq_some_iff.mp found).1]
    rfl
  generalize lower.anchorContextId = node at above
  induction above using Relation.TransGen.head_induction_on with
  | single linked =>
      exact Above.of_parent (Db.activeParent_eq_some_iff.mpr ⟨linked, override.selected.1⟩)
  | head linked further inductionHypothesis =>
      obtain ⟨up, nextLinked, _⟩ := Relation.TransGen.head'_iff.mp further
      exact Above.trans inductionHypothesis
        (Above.of_parent (Db.activeParent_eq_some_iff.mpr ⟨linked, storedActive _ up nextLinked⟩))

/-- A project of one owner. -/
def chainProject (id : Nat) (key : String) (parent : Option ContextId)
    (lifecycle : ContextLifecycle) : ContextRow :=
  ⟨⟨⟨id⟩, ContextKind.project, key, key, none, "owner", none, parent, lifecycle, false, 0, 0⟩, key⟩

/-- An override of the project policy. -/
def chainOverride (id : Nat) (guidance : String) : ContextAnchorPolicyRecord :=
  ⟨⟨id⟩, "owner", ⟨Table.empty.upsert
    ("project", { ContextKindPolicy.default with guidance := some guidance })⟩, 0⟩

/-- A chain of three projects whose ends carry overrides. -/
def chainStore (middle : ContextLifecycle) : Db :=
  { Db.empty 3 with
    contextKinds := Table.empty.upsert ⟨ContextKind.project, "Project", true, true, 0, 0⟩
    contexts := ((Table.empty.upsert (chainProject 1 "group" none .active)).upsert
      (chainProject 2 "program" (some ⟨1⟩) middle)).upsert
      (chainProject 3 "task" (some ⟨2⟩) .active)
    anchorPolicies := (Table.empty.upsert (chainOverride 1 "group rules")).upsert
      (chainOverride 3 "task rules") }

/-- An envelope that names the lowest project. -/
def chainEnvelope : ContextEnvelope :=
  { ContextEnvelope.default with refs := [ContextReference.byId ⟨3⟩] }

omit [Host] [IdentityHost] in
theorem most_specific_anchors_of_active_chain :
    (chainStore .active).contexts.contains ⟨9⟩ = false ∧
      ∃ selection, @Db.resolveContextSelection asciiHost plainIdentities (chainStore .active)
        "owner" (some chainEnvelope) none false = .ok selection ∧
        selection.directIds = [⟨3⟩] ∧
        ∀ record, record ∈ (chainStore .active).participatingAnchors "owner"
            selection.effectiveIds ContextKind.project ↔
          (chainStore .active).MostSpecific "owner" selection.directIds
            ((chainStore .active).selectsDescendants "owner" false selection.directIds)
            ContextKind.project record := by
  have fresh : (chainStore .active).contexts.contains ⟨9⟩ = false := by decide
  have ran : ∃ selection, @Db.resolveContextSelection asciiHost plainIdentities
      (chainStore .active) "owner" (some chainEnvelope) none false = .ok selection ∧
      selection.directIds = [⟨3⟩] := ⟨_, rfl, rfl⟩
  obtain ⟨selection, resolved, direct⟩ := ran
  refine ⟨fresh, selection, resolved, direct, ?_⟩
  refine (@most_specific_anchors_iff_unseparated _ _ asciiHost plainIdentities _ 0 _ _ _ fresh
    (@Db.Resolves.envelope asciiHost plainIdentities _ _ _ _ _ _ _ _ resolved)
    ContextKind.project).mpr (Db.anchorsUnseparated_of_active ?_)
  have active : ∀ row ∈ (chainStore .active).contexts.rows, row.context.lifecycle = .active := by
    decide
  exact active

omit [Host] [IdentityHost] in
/-- The archived project in the middle lets both overrides take part. -/
theorem anchors_not_most_specific_across_archived :
    ∃ selection, @Db.resolveContextSelection asciiHost plainIdentities
      (chainStore .archived) "owner" (some chainEnvelope) none true = .ok selection ∧
      ¬∀ record, record ∈ (chainStore .archived).participatingAnchors "owner"
          selection.effectiveIds ContextKind.project ↔
        (chainStore .archived).MostSpecific "owner" selection.directIds
          ((chainStore .archived).selectsDescendants "owner" false selection.directIds)
          ContextKind.project record := by
  have ran : ∃ selection, @Db.resolveContextSelection asciiHost plainIdentities
      (chainStore .archived) "owner" (some chainEnvelope) none true = .ok selection ∧
      selection.directIds = [⟨3⟩] ∧ selection.effectiveIds = [⟨3⟩, ⟨1⟩] :=
    ⟨_, rfl, rfl, rfl⟩
  obtain ⟨selection, resolved, direct, effective⟩ := ran
  refine ⟨selection, resolved, fun exactly => ?_⟩
  rw [direct, effective] at exactly
  have participates : chainOverride 1 "group rules" ∈
      (chainStore .archived).participatingAnchors "owner" [⟨3⟩, ⟨1⟩] ContextKind.project := by
    decide
  have specific := (exactly _).mp participates
  have upper : (chainStore .archived).StoredAbove ⟨1⟩ ⟨2⟩ := Above.of_parent rfl
  have lower : (chainStore .archived).StoredAbove ⟨2⟩ ⟨3⟩ := Above.of_parent rfl
  refine specific.lowest (chainOverride 3 "task rules") ⟨by decide, rfl, by decide, ?_⟩
    (by decide) (Above.trans upper lower)
  exact Or.inl (List.mem_singleton.mpr rfl)

end LocalHold
