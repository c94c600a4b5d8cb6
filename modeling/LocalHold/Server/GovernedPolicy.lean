import LocalHold.Server.LegacyResolution
import LocalHold.Store.ContextEffects

/-!
# Governed writes meet their policies

Whatever route a governed write takes, a successful resolution passed the policy
checks for its final effective selection.  The four routes meet in two places:
`checkPolicies`, and the deferral of an empty selection.
-/

namespace LocalHold

open Relational Transition.Checked

/-! ## Policies of a selection -/

/-- The stored definitions of identifiers. -/
def Db.definitionsOf (db : Db) (ids : List ContextId) : List ContextDefinition :=
  ids.filterMap fun id => (db.contexts.find? id).map (·.context)

/-- The policy of a kind, evaluated for an effective selection. -/
def Db.selectionPolicy (db : Db) (principal : String) (effectiveIds : List ContextId)
    (kind : ContextKind) : EffectiveContextPolicy :=
  effectivePolicyFor (db.contextPolicyState principal)
    (policyRecords (db.definitionsOf effectiveIds)) kind effectiveIds

/-- Every stored context has a kind of the kind table, as the schema's foreign
key demands. -/
def Db.KindsKnown (db : Db) : Prop :=
  ∀ row ∈ db.contexts, db.contextKinds.contains row.context.kind = true

/-- A resolved selection meets the policies evaluated for it. -/
structure SatisfiesPolicies (db : Db) (principal : String)
    (selection : ResolvedContextSelection) : Prop where
  directIds : selection.resolution.direct.map (·.id) = selection.directIds
  effectiveIds : selection.resolution.effective.map (·.id) = selection.effectiveIds
  unambiguous : ∀ kind, db.contextKinds.contains kind = true →
    (db.selectionPolicy principal selection.effectiveIds kind).ambiguities = []
  allowed : ∀ context ∈ selection.resolution.effective,
    (db.selectionPolicy principal selection.effectiveIds context.kind).allowed = true
  required : ∀ kind, db.contextKinds.contains kind = true →
    (db.selectionPolicy principal selection.effectiveIds kind).required = true →
    ∃ context ∈ selection.resolution.direct, context.kind = kind
  companions : ∀ first ∈ selection.resolution.effective,
    ∀ second ∈ selection.resolution.effective, first.kind ≠ second.kind →
    ∀ kinds, (db.selectionPolicy principal selection.effectiveIds first.kind).allowedCompanionKinds =
      some kinds → second.kind ∈ kinds

theorem evaluateEffectiveContextPolicy_kind (kind : ContextKind)
    (kinds : List ContextKindDefinition) (kindPolicies : List ContextKindPolicyRecord)
    (anchorPolicies : List ContextAnchorPolicyRecord) (records : List ContextRecord)
    (ids : List ContextId) :
    (evaluateEffectiveContextPolicy kind kinds kindPolicies anchorPolicies records ids).kind =
      kind := by
  rw [evaluateEffectiveContextPolicy]
  split <;> rfl

/-- The evaluation depends on the selection only through the anchors it keeps. -/
theorem evaluateEffectiveContextPolicy_congr {kind : ContextKind}
    {kinds : List ContextKindDefinition} {kindPolicies : List ContextKindPolicyRecord}
    {anchorPolicies : List ContextAnchorPolicyRecord} {records others : List ContextRecord}
    {ids otherIds : List ContextId}
    (same : specificAnchorRecords kind anchorPolicies records ids =
      specificAnchorRecords kind anchorPolicies others otherIds) :
    evaluateEffectiveContextPolicy kind kinds kindPolicies anchorPolicies records ids =
      evaluateEffectiveContextPolicy kind kinds kindPolicies anchorPolicies others otherIds := by
  simp only [evaluateEffectiveContextPolicy, same]

/-- The policy of every defined kind is evaluated. -/
theorem Db.effectivePolicyFor_mem {db : Db} {principal : String} {kind : ContextKind}
    (known : db.contextKinds.contains kind = true) (records : List ContextRecord)
    (ids : List ContextId) :
    effectivePolicyFor (db.contextPolicyState principal) records kind ids ∈
      effectivePolicies (db.contextPolicyState principal) records ids := by
  obtain ⟨definition, definitionMem, rfl⟩ := Table.contains_eq_true_iff.mp known
  exact List.mem_map.mpr ⟨definition, Db.mem_listContextKinds.mpr definitionMem, rfl⟩

/-- Stored definitions are the definitions of their identifiers. -/
theorem Db.definitionsOf_map_id {db : Db} {contexts : List ContextDefinition}
    (stored : ∀ context ∈ contexts, ∃ row ∈ db.contexts, row.context = context) :
    db.definitionsOf (contexts.map (·.id)) = contexts := by
  induction contexts with
  | nil => rfl
  | cons context rest inductionHypothesis =>
      obtain ⟨row, rowMem, rfl⟩ := stored context List.mem_cons_self
      have found := Table.find?_eq_some_iff.mpr ⟨rowMem, rfl⟩
      have later := inductionHypothesis fun other otherMem =>
        stored other (List.mem_cons_of_mem row.context otherMem)
      rw [Db.definitionsOf] at later ⊢
      rw [List.map_cons, List.filterMap_cons, found, Option.map_some, later]

/-! ## The policy checks -/

/-- What passing the checks means. -/
structure PoliciesPass (policies : List EffectiveContextPolicy)
    (effectiveKinds directKinds : List ContextKind) : Prop where
  unambiguous : ∀ policy ∈ policies, policy.ambiguities = []
  allowed : ∀ policy ∈ policies, policy.kind ∈ effectiveKinds → policy.allowed = true
  required : ∀ policy ∈ policies, policy.required = true → policy.kind ∈ directKinds
  companions : ∀ policy ∈ policies, policy.kind ∈ effectiveKinds →
    ∀ companions, policy.allowedCompanionKinds = some companions →
    ∀ kind ∈ effectiveKinds, kind ≠ policy.kind → kind ∈ companions

theorem disallowedCompanion_eq_none {policy : EffectiveContextPolicy} {kinds : List ContextKind}
    (none : disallowedCompanion policy kinds = none) {companions : List ContextKind}
    (stated : policy.allowedCompanionKinds = some companions) {kind : ContextKind}
    (member : kind ∈ kinds) (distinct : kind ≠ policy.kind) : kind ∈ companions := by
  rw [disallowedCompanion, stated, Option.bind_some, List.find?_eq_none] at none
  by_contra outside
  exact none kind member (by simp [distinct, outside])

variable {field : String} {policies : List EffectiveContextPolicy}
  {effectiveKinds directKinds : List ContextKind} {candidates : List ContextCandidate}

theorem policiesPass_of_checkPolicies
    (checked : checkPolicies field policies effectiveKinds directKinds true candidates = .ok ()) :
    PoliciesPass policies effectiveKinds directKinds := by
  rw [checkPolicies] at checked
  obtain ⟨noAmbiguity, checked⟩ := of_refuse_bind checked
  obtain ⟨noDenial, checked⟩ := of_refuse_bind checked
  obtain ⟨noMissing, checked⟩ := of_refuse_bind checked
  rw [List.find?_eq_none] at noAmbiguity noDenial noMissing
  constructor
  · intro policy policyMem
    simpa using noAmbiguity policy policyMem
  · intro policy policyMem kindMem
    have undenied := noDenial policy policyMem
    simpa [kindMem] using undenied
  · intro policy policyMem required
    have present := noMissing policy policyMem
    simpa [required] using present
  · intro policy policyMem kindMem companions stated kind member distinct
    have passed := forM_ok_forall checked policy
      (List.mem_filter.mpr ⟨policyMem, by simpa using kindMem⟩)
    exact disallowedCompanion_eq_none (refuse_eq_ok.mp passed) stated member distinct

/-- Policies that meet every requirement pass the checks. -/
theorem checkPolicies_of_policiesPass (passed : PoliciesPass policies effectiveKinds directKinds) :
    checkPolicies field policies effectiveKinds directKinds true candidates = .ok () := by
  have noAmbiguity : policies.find? (fun policy => !policy.ambiguities.isEmpty) = none := by
    rw [List.find?_eq_none]
    intro policy policyMem
    simp [passed.unambiguous policy policyMem]
  have noDenial : policies.find? (fun policy =>
      decide (policy.kind ∈ effectiveKinds ∧ policy.allowed = false)) = none := by
    rw [List.find?_eq_none]
    intro policy policyMem
    simpa using passed.allowed policy policyMem
  have noMissing : policies.find? (fun policy =>
      decide (true = true ∧ policy.required = true ∧ policy.kind ∉ directKinds)) = none := by
    rw [List.find?_eq_none]
    intro policy policyMem
    simpa using passed.required policy policyMem
  rw [checkPolicies, noAmbiguity, noDenial, noMissing]
  apply forM_ok_of_forall
  intro policy member
  obtain ⟨policyMem, kindMem⟩ := List.mem_filter.mp member
  rw [refuse_eq_ok, disallowedCompanion, Option.bind_eq_none_iff]
  intro companions stated
  rw [List.find?_eq_none]
  intro kind kindListed
  simpa using passed.companions policy policyMem (by simpa using kindMem) companions stated kind
    kindListed

/-! ## The lookup phases -/

/-- Every direct context was resolved to a context that the principal may
select. -/
def SelectionState.Sound (db : Db) (principal : String) (state : SelectionState) : Prop :=
  ∀ id ∈ state.directIds, ∃ record, state.resolved.find? id = some record ∧
    db.Selectable principal record.context

variable {db : Db} {principal : String} {state : SelectionState}

theorem SelectionState.Sound.start : SelectionState.start.Sound db principal := by
  intro id absent
  cases absent

theorem SelectionState.Sound.select (sound : state.Sound db principal) {record : ContextRecord}
    (selectable : db.Selectable principal record.context) :
    (state.select record).Sound db principal := by
  intro id member
  simp only [SelectionState.select, Table.find?_upsert]
  by_cases same : id = record.context.id
  · exact ⟨record, by rw [if_pos same], selectable⟩
  · rw [if_neg same]
    apply sound
    simp only [SelectionState.select] at member
    split at member
    · exact member
    · rcases List.mem_append.mp member with older | added
      · exact older
      · exact absurd (List.mem_singleton.mp added) same

variable [Host] [IdentityHost]

theorem SelectionState.Sound.resolveReference (sound : state.Sound db principal)
    {reference : ContextReference} {next : SelectionState}
    (ran : resolveReference db principal state reference = .ok next) : next.Sound db principal := by
  rw [LocalHold.resolveReference] at ran
  obtain ⟨lookup, _, ran⟩ := bind_eq_ok.mp ran
  split at ran
  · rename_i record found
    cases ran
    exact sound.select (Db.selectable_of_mem_findContextRecords (by rw [found]; simp))
  · cases ran
    exact sound
  · cases ran

omit [IdentityHost] in
theorem SelectionState.Sound.resolveLookupValue (sound : state.Sound db principal)
    {value : String} {next : SelectionState}
    (ran : resolveLookupValue db principal state value = .ok next) : next.Sound db principal := by
  rw [LocalHold.resolveLookupValue] at ran
  split at ran
  · rename_i record found
    cases ran
    exact sound.select (Db.selectable_of_mem_findContextRecords (by rw [found]; simp))
  · cases ran
    exact sound
  · cases ran

omit [IdentityHost] in
theorem SelectionState.Sound.resolveHint (sound : state.Sound db principal)
    {records : List ContextRecord}
    (selectable : ∀ record ∈ records, db.Selectable principal record.context)
    {value : String} {next : SelectionState}
    (ran : resolveHint records state value = .ok next) : next.Sound db principal := by
  rw [LocalHold.resolveHint] at ran
  split at ran
  · rename_i record found
    cases ran
    have member : record ∈ records.filter (matchesResolverHint (normalizeContextKey value)) := by
      rw [found]
      simp
    exact sound.select (selectable record (List.mem_filter.mp member).1)
  · cases ran
    exact sound
  · cases ran

omit [Host] [IdentityHost] in
theorem selectable_of_mem_fuzzyRecords {record : ContextRecord}
    (member : record ∈ fuzzyRecords db principal state) :
    db.Selectable principal record.context := by
  rw [fuzzyRecords] at member
  split at member
  · cases member
  · exact Db.selectable_of_mem_authorizedContextRecords member

/-- The lookup phases select contexts that the principal may select. -/
theorem sound_of_lookupSelection {envelope : ContextEnvelope} {query : Option String}
    (ran : lookupSelection db principal envelope query = .ok state) :
    state.Sound db principal := by
  rw [lookupSelection] at ran
  obtain ⟨referenced, referencedRan, ran⟩ := bind_eq_ok.mp ran
  obtain ⟨looked, lookedRan, ran⟩ := bind_eq_ok.mp ran
  obtain ⟨hinted, hintedRan, done⟩ := bind_eq_ok.mp ran
  have referencedSound : referenced.Sound db principal :=
    foldlM_invariant (fun _ _ _ _ sound stepRan => SelectionState.Sound.resolveReference sound stepRan)
      SelectionState.Sound.start referencedRan
  have lookedSound : looked.Sound db principal :=
    foldlM_invariant (fun _ _ _ _ sound stepRan => SelectionState.Sound.resolveLookupValue sound stepRan)
      referencedSound lookedRan
  have hintedSound : hinted.Sound db principal := by
    refine foldlM_invariant (fun _ _ _ _ sound stepRan =>
      SelectionState.Sound.resolveHint sound (fun _ => selectable_of_mem_fuzzyRecords) stepRan)
      ?_ hintedRan
    exact lookedSound
  cases done
  exact hintedSound

omit [Host] [IdentityHost] in
/-- One round over the policy defaults. -/
theorem SelectionState.Sound.selectDefault {defaults : DefaultState}
    (sound : defaults.selection.Sound db principal) (policy : EffectiveContextPolicy) :
    (selectDefault db principal defaults policy).selection.Sound db principal := by
  have kept : ∀ problem, (LocalHold.selectDefault.missing policy defaults problem).selection.Sound
      db principal := by
    intro problem
    rw [LocalHold.selectDefault.missing]
    split <;> exact sound
  rw [LocalHold.selectDefault]
  split
  · split
    · exact kept _
    · split
      · rename_i record found
        split
        · exact sound.select (Db.selectable_of_mem_findContextRecords (by rw [found]; simp))
        · exact kept _
      · exact kept _
  · exact kept _

omit [Host] [IdentityHost] in
theorem sound_of_selectDefaults {guidance : List String} {next : SelectionState}
    (sound : state.Sound db principal)
    (ran : selectDefaults db principal policies guidance state = .ok next) :
    next.Sound db principal := by
  rw [selectDefaults] at ran
  obtain ⟨_, done⟩ := of_ensure_bind ran
  cases done
  have folded : ∀ (policies : List EffectiveContextPolicy) (defaults : DefaultState),
      defaults.selection.Sound db principal →
      (policies.foldl (selectDefault db principal) defaults).selection.Sound db principal := by
    intro policies
    induction policies with
    | nil => exact fun _ held => held
    | cons policy rest inductionHypothesis =>
        intro defaults held
        exact inductionHypothesis _ (held.selectDefault policy)
  exact folded policies _ sound

/-! ## Inversion of a governed resolution -/

/-- A deferred write: nothing selected, nothing required, nothing ambiguous. -/
structure Deferred (db : Db) (principal : String) (envelope : ContextEnvelope)
    (selection : ResolvedContextSelection) : Prop where
  directIds : selection.directIds = []
  effectiveIds : selection.effectiveIds = []
  direct : selection.resolution.direct = []
  effective : selection.resolution.effective = []
  allowed : envelope.allowUnresolved = true
  unambiguous : ∀ policy ∈ effectivePolicies (db.contextPolicyState principal) [] [],
    policy.ambiguities = []
  optional : ∀ policy ∈ effectivePolicies (db.contextPolicyState principal) [] [],
    policy.required = false

omit [Host] [IdentityHost] in
/-- A governed write does not settle for an empty selection. -/
theorem proceed_of_settleEmpty {envelope : ContextEnvelope} {query : Option String}
    {guidance : List String} {outcome : EmptyOutcome}
    (ran : settleEmpty envelope query true guidance state = .ok outcome) :
    outcome = .proceed state ∧ state.directIds ≠ [] := by
  rw [settleEmpty] at ran
  split at ran
  · simp at ran
  · rename_i nonempty
    cases ran
    exact ⟨rfl, by simpa using nonempty⟩

omit [Host] [IdentityHost] in
/-- An empty selection is deferred or filled from the defaults. -/
theorem resolveEmpty_cases {envelope : ContextEnvelope} {query : Option String}
    {outcome : EmptyOutcome} (sound : state.Sound db principal)
    (ran : resolveEmpty db principal (db.contextPolicyState principal) envelope query true state =
      .ok outcome) :
    (∃ selection, outcome = .done selection ∧ Deferred db principal envelope selection) ∨
      ∃ next, outcome = .proceed next ∧ next.Sound db principal ∧ next.directIds ≠ [] := by
  rw [resolveEmpty] at ran
  obtain ⟨unambiguous, ran⟩ := of_ensure_bind ran
  rw [List.all_eq_true] at unambiguous
  split at ran
  · rename_i deferred
    simp only [Bool.true_and, Bool.and_eq_true, Bool.not_eq_true', List.any_eq_false] at deferred
    left
    refine ⟨_, (Except.ok.inj ran).symm, rfl, rfl, rfl, rfl, deferred.1, ?_, ?_⟩
    · intro policy policyMem
      simpa using unambiguous policy policyMem
    · intro policy policyMem
      simpa using deferred.2 policy policyMem
  · right
    split at ran
    · obtain ⟨defaulted, defaultedRan, settled⟩ := bind_eq_ok.mp ran
      obtain ⟨rfl, nonempty⟩ := proceed_of_settleEmpty settled
      exact ⟨defaulted, rfl, sound_of_selectDefaults sound defaultedRan, nonempty⟩
    · obtain ⟨rfl, nonempty⟩ := proceed_of_settleEmpty ran
      exact ⟨state, rfl, sound, nonempty⟩

/-- A successful governed resolution is a deferral or passed the policy phase. -/
theorem Db.resolveContextSelection_cases {requested : Option ContextEnvelope}
    {selection : ResolvedContextSelection}
    (ran : db.resolveContextSelection principal requested none true = .ok selection) :
    Deferred db principal (requested.getD ContextEnvelope.default) selection ∨
      ∃ state : SelectionState, state.Sound db principal ∧ state.directIds ≠ [] ∧
        resolvePolicies db principal (db.contextPolicyState principal)
          (requested.getD ContextEnvelope.default) true state = .ok selection := by
  rw [Db.resolveContextSelection] at ran
  obtain ⟨_, _, ran⟩ := bind_eq_ok.mp ran
  simp only [Bool.not_true, Bool.and_false, Bool.false_eq_true, ↓reduceIte] at ran
  obtain ⟨state, lookedUp, ran⟩ := bind_eq_ok.mp ran
  have sound := sound_of_lookupSelection lookedUp
  rw [finishSelection] at ran
  obtain ⟨_, ran⟩ := of_ensure_bind ran
  split at ran
  · obtain ⟨outcome, emptyRan, ran⟩ := bind_eq_ok.mp ran
    rcases resolveEmpty_cases sound emptyRan with ⟨_, rfl, deferred⟩ | ⟨next, rfl, nextSound, nonempty⟩
    · cases ran
      exact Or.inl deferred
    · exact Or.inr ⟨next, nextSound, nonempty, ran⟩
  · rename_i nonempty
    exact Or.inr ⟨state, sound, by simpa using nonempty, ran⟩

/-! ## The policy phase -/

/-- Whether the final selection of direct contexts includes descendants. -/
def Db.selectsDescendants (db : Db) (principal : String) (asked : Bool)
    (directIds : List ContextId) : Bool :=
  match db.expandContextSelection directIds principal false with
  | .ok initial =>
      includesDescendants (db.contextPolicyState principal)
        { ContextEnvelope.default with includeDescendants := asked }
        ((db.definitionsOf directIds).map (·.kind)) initial
  | .error _ => false

omit [Host] [IdentityHost] in
/-- A direct context is stored as it was resolved. -/
theorem SelectionState.Sound.stored (sound : state.Sound db principal) {id : ContextId}
    (member : id ∈ state.directIds) :
    ∃ record row, state.resolved.find? id = some record ∧ db.contexts.find? id = some row ∧
      row.context = record.context := by
  obtain ⟨record, found, ⟨row, rowMem, sameContext⟩, _⟩ := sound id member
  have sameId := (Table.find?_eq_some_iff.mp found).2
  exact ⟨record, row, found,
    Table.find?_eq_some_iff.mpr ⟨rowMem, by rw [sameContext]; exact sameId⟩, sameContext⟩

omit [Host] [IdentityHost] in
/-- The resolved records of the direct contexts carry the stored definitions. -/
theorem SelectionState.Sound.directContexts (sound : state.Sound db principal) :
    (state.directIds.filterMap state.resolved.find?).map (·.context) =
      db.definitionsOf state.directIds := by
  rw [Db.definitionsOf, List.map_filterMap]
  apply List.filterMap_congr
  intro id member
  obtain ⟨record, row, resolved, found, sameContext⟩ := sound.stored member
  rw [resolved, found, Option.map_some, Option.map_some, sameContext]

omit [Host] [IdentityHost] in
theorem SelectionState.Sound.directKinds_eq (sound : state.Sound db principal) :
    state.directKinds = (db.definitionsOf state.directIds).map (·.kind) := by
  rw [SelectionState.directKinds, ← sound.directContexts, List.map_map]
  rfl

omit [Host] [IdentityHost] in
theorem SelectionState.Sound.map_id_definitionsOf (sound : state.Sound db principal) :
    (db.definitionsOf state.directIds).map (·.id) = state.directIds := by
  rw [Db.definitionsOf, List.map_filterMap]
  conv_rhs => rw [← List.filterMap_some (l := state.directIds)]
  apply List.filterMap_congr
  intro id member
  obtain ⟨_, row, _, found, _⟩ := sound.stored member
  rw [found, Option.map_some, Option.map_some, (Table.find?_eq_some_iff.mp found).2]

omit [Host] [IdentityHost] in
/-- The final expansion is the expansion with the final descendants flag. -/
theorem SelectionState.Sound.expandFinal_ok (sound : state.Sound db principal)
    {envelope : ContextEnvelope} {effective : List ContextDefinition}
    (ran : expandFinal db principal (db.contextPolicyState principal) envelope state =
      .ok effective) :
    db.expandContextSelection state.directIds principal
      (db.selectsDescendants principal envelope.includeDescendants state.directIds) =
        .ok effective := by
  rw [expandFinal] at ran
  obtain ⟨initial, initialRan, ran⟩ := bind_eq_ok.mp ran
  rw [mapError_eq_ok] at initialRan
  have flagged : db.selectsDescendants principal envelope.includeDescendants state.directIds =
      includesDescendants (db.contextPolicyState principal) envelope state.directKinds
        initial := by
    rw [Db.selectsDescendants, initialRan, sound.directKinds_eq]
    rfl
  rw [flagged]
  split at ran
  · rename_i widened
    rw [widened]
    exact mapError_eq_ok.mp ran
  · rename_i narrow
    rw [Bool.not_eq_true] at narrow
    cases ran
    rw [narrow]
    exact initialRan

/-- What a selection that passed the policy phase looks like. -/
structure PolicyPhase (db : Db) (principal : String) (asked : Bool)
    (selection : ResolvedContextSelection) (effective : List ContextDefinition) : Prop where
  nonempty : selection.directIds ≠ []
  expanded : db.expandContextSelection selection.directIds principal
    (db.selectsDescendants principal asked selection.directIds) = .ok effective
  direct : selection.resolution.direct =
    (db.definitionsOf selection.directIds).map (·.descriptor)
  directIds : (db.definitionsOf selection.directIds).map (·.id) = selection.directIds
  effective_eq : selection.resolution.effective = effective.map (·.descriptor)
  effectiveIds : selection.effectiveIds = effective.map (·.id)
  passed : PoliciesPass
    (effectivePolicies (db.contextPolicyState principal) (policyRecords effective)
      (effective.map (·.id))) (effective.map (·.kind))
    ((db.definitionsOf selection.directIds).map (·.kind))

omit [Host] [IdentityHost] in
theorem SelectionState.Sound.resolvePolicies_ok (sound : state.Sound db principal)
    (nonempty : state.directIds ≠ []) {envelope : ContextEnvelope}
    {selection : ResolvedContextSelection}
    (ran : resolvePolicies db principal (db.contextPolicyState principal) envelope true state =
      .ok selection) :
    ∃ effective, PolicyPhase db principal envelope.includeDescendants selection effective := by
  rw [resolvePolicies] at ran
  obtain ⟨effective, expandedRan, ran⟩ := bind_eq_ok.mp ran
  obtain ⟨_, checked, done⟩ := bind_eq_ok.mp ran
  cases done
  refine ⟨effective, nonempty, sound.expandFinal_ok expandedRan, ?_,
    sound.map_id_definitionsOf, rfl, rfl, ?_⟩
  · rw [← sound.directContexts, List.map_map]
    rfl
  · rw [← sound.directKinds_eq]
    exact policiesPass_of_checkPolicies checked

/-! ## The selection that each route returns -/

/-- What a successful resolution of a governed write guarantees. -/
structure GovernedSelection (db : Db) (principal : String) (allowsUnresolved : Bool)
    (selection : ResolvedContextSelection) : Prop where
  satisfies : SatisfiesPolicies db principal selection
  deferred : selection.directIds = [] → allowsUnresolved = true ∧
    ∀ kind, db.contextKinds.contains kind = true →
      (db.selectionPolicy principal selection.effectiveIds kind).required = false

omit [Host] [IdentityHost] in
/-- A deferred write meets the policies of the empty selection. -/
theorem Deferred.governedSelection {envelope : ContextEnvelope}
    {selection : ResolvedContextSelection} (deferred : Deferred db principal envelope selection) :
    GovernedSelection db principal envelope.allowUnresolved selection := by
  have evaluated : ∀ kind, db.contextKinds.contains kind = true →
      db.selectionPolicy principal selection.effectiveIds kind ∈
        effectivePolicies (db.contextPolicyState principal) [] [] := by
    intro kind known
    rw [deferred.effectiveIds]
    exact Db.effectivePolicyFor_mem known [] []
  have optional : ∀ kind, db.contextKinds.contains kind = true →
      (db.selectionPolicy principal selection.effectiveIds kind).required = false :=
    fun kind known => deferred.optional _ (evaluated kind known)
  refine ⟨⟨?_, ?_, ?_, ?_, ?_, ?_⟩, fun _ => ⟨deferred.allowed, optional⟩⟩
  · rw [deferred.direct, deferred.directIds, List.map_nil]
  · rw [deferred.effective, deferred.effectiveIds, List.map_nil]
  · exact fun kind known => deferred.unambiguous _ (evaluated kind known)
  · intro context member
    rw [deferred.effective] at member
    cases member
  · intro kind known required
    rw [optional kind known] at required
    cases required
  · intro first member
    rw [deferred.effective] at member
    cases member

omit [Host] [IdentityHost] in
/-- A selection that passed the policy phase meets the policies of its effective
contexts. -/
theorem PolicyPhase.satisfies {asked : Bool} {selection : ResolvedContextSelection}
    {effective : List ContextDefinition} (known : db.KindsKnown)
    (phase : PolicyPhase db principal asked selection effective) :
    SatisfiesPolicies db principal selection := by
  have expansion := Db.expandContextSelection_ok phase.expanded
  have policy_eq : ∀ kind, db.selectionPolicy principal selection.effectiveIds kind =
      effectivePolicyFor (db.contextPolicyState principal) (policyRecords effective) kind
        (effective.map (·.id)) := by
    intro kind
    rw [Db.selectionPolicy, phase.effectiveIds, Db.definitionsOf_map_id expansion.stored]
  have evaluated : ∀ kind, db.contextKinds.contains kind = true →
      db.selectionPolicy principal selection.effectiveIds kind ∈
        effectivePolicies (db.contextPolicyState principal) (policyRecords effective)
          (effective.map (·.id)) := by
    intro kind kindKnown
    rw [policy_eq]
    exact Db.effectivePolicyFor_mem kindKnown _ _
  have kind_eq : ∀ kind,
      (db.selectionPolicy principal selection.effectiveIds kind).kind = kind :=
    fun kind => evaluateEffectiveContextPolicy_kind kind _ _ _ _ _
  have effectiveKind : ∀ context ∈ selection.resolution.effective,
      context.kind ∈ effective.map (·.kind) ∧
        db.contextKinds.contains context.kind = true := by
    intro context member
    rw [phase.effective_eq] at member
    obtain ⟨definition, definitionMem, rfl⟩ := List.mem_map.mp member
    obtain ⟨row, rowMem, rfl⟩ := expansion.stored definition definitionMem
    exact ⟨List.mem_map.mpr ⟨_, definitionMem, rfl⟩, known row rowMem⟩
  constructor
  · rw [phase.direct, List.map_map]
    exact phase.directIds
  · rw [phase.effective_eq, List.map_map, phase.effectiveIds]
    rfl
  · exact fun kind kindKnown => phase.passed.unambiguous _ (evaluated kind kindKnown)
  · intro context member
    obtain ⟨kindMem, kindKnown⟩ := effectiveKind context member
    exact phase.passed.allowed _ (evaluated _ kindKnown) (by rw [kind_eq]; exact kindMem)
  · intro kind kindKnown required
    have direct := phase.passed.required _ (evaluated kind kindKnown) required
    rw [kind_eq] at direct
    obtain ⟨definition, definitionMem, rfl⟩ := List.mem_map.mp direct
    exact ⟨definition.descriptor, by
      rw [phase.direct]; exact List.mem_map.mpr ⟨_, definitionMem, rfl⟩, rfl⟩
  · intro first firstMem second secondMem distinct kinds stated
    obtain ⟨firstKind, firstKnown⟩ := effectiveKind first firstMem
    obtain ⟨secondKind, _⟩ := effectiveKind second secondMem
    exact phase.passed.companions _ (evaluated _ firstKnown) (by rw [kind_eq]; exact firstKind)
      kinds stated second.kind secondKind (by rw [kind_eq]; exact distinct.symm)

/-- Both routes of an envelope: the deferral and the policy phase. -/
theorem Db.governedSelection_of_resolveContextSelection {requested : Option ContextEnvelope}
    {selection : ResolvedContextSelection} (known : db.KindsKnown)
    (ran : db.resolveContextSelection principal requested none true = .ok selection) :
    GovernedSelection db principal (requested.getD ContextEnvelope.default).allowUnresolved
      selection := by
  rcases Db.resolveContextSelection_cases ran with deferred | ⟨state, sound, nonempty, ran⟩
  · exact deferred.governedSelection
  · obtain ⟨effective, phase⟩ := sound.resolvePolicies_ok nonempty ran
    exact ⟨phase.satisfies known, fun empty => absurd empty phase.nonempty⟩

omit [Host] [IdentityHost] in
/-- The guarantee does not mention which implied context was created. -/
theorem GovernedSelection.created {allows : Bool} {selection : ResolvedContextSelection}
    (governed : GovernedSelection db principal allows selection) (id : ContextId) :
    GovernedSelection db principal allows { selection with createdLegacyContext := some id } :=
  ⟨⟨governed.satisfies.directIds, governed.satisfies.effectiveIds,
    governed.satisfies.unambiguous, governed.satisfies.allowed, governed.satisfies.required,
    governed.satisfies.companions⟩, governed.deferred⟩

/-! ## Previews -/

omit [Host] [IdentityHost] in
/-- No anchor override names a context that is not stored. -/
theorem Db.selectionPolicy_of_fresh {id : ContextId}
    (fresh : db.contexts.contains id = false) (kind : ContextKind) :
    db.selectionPolicy principal [id] kind =
      effectivePolicyFor (db.contextPolicyState principal) [] kind [] := by
  have undefined : db.definitionsOf [id] = [] := by
    have absent : db.contexts.find? id = none := by
      rw [Table.contains, Option.isSome_eq_false_iff, Option.isNone_iff_eq_none] at fresh
      exact fresh
    rw [Db.definitionsOf, List.filterMap_cons, absent]
    rfl
  have unanchored : activeAnchorRecords kind (db.listContextAnchorPolicies principal) [id] =
      activeAnchorRecords kind (db.listContextAnchorPolicies principal) [] := by
    apply List.filter_congr
    intro record listed
    have stored := Db.contains_of_mem_listContextAnchorPolicies listed
    have other : record.anchorContextId ≠ id := by
      intro same
      rw [same, fresh] at stored
      cases stored
    simp [other]
  rw [Db.selectionPolicy, undefined]
  apply evaluateEffectiveContextPolicy_congr
  change specificAnchorRecords kind (db.listContextAnchorPolicies principal) [] [id] =
    specificAnchorRecords kind (db.listContextAnchorPolicies principal) [] []
  rw [specificAnchorRecords, specificAnchorRecords, unanchored]

omit [Host] [IdentityHost] in
theorem done_of_previewCreation {draft : ContextCreateDraft} {target : LegacyTarget}
    (ran : previewCreation db principal (db.contextPolicyState principal) draft = .ok target) :
    target = .done (previewSelection draft
      (effectivePolicies (db.contextPolicyState principal) [] [])) := by
  rw [previewCreation] at ran
  obtain ⟨_, ran⟩ := of_ensure_bind ran
  obtain ⟨_, _, done⟩ := bind_eq_ok.mp ran
  exact (Except.ok.inj done).symm

omit [Host] [IdentityHost] in
/-- A preview meets the policies of the context that a write would create. -/
theorem governedSelection_of_previewCreation {draft : ContextCreateDraft}
    {selection : ResolvedContextSelection} (fresh : db.contexts.contains draft.id = false)
    (checked : checkImplicitCreation (db.contextPolicyState principal) = .ok ())
    (custom : draft.kind = ContextKind.custom)
    (ran : previewCreation db principal (db.contextPolicyState principal) draft =
      .ok (.done selection)) :
    GovernedSelection db principal false selection := by
  cases done_of_previewCreation ran
  rw [checkImplicitCreation] at checked
  obtain ⟨permitted, _⟩ := of_ensure_bind checked
  rw [Bool.and_eq_true] at permitted
  rw [previewCreation] at ran
  obtain ⟨_, ran⟩ := of_ensure_bind ran
  obtain ⟨_, passed, _⟩ := bind_eq_ok.mp ran
  have passed := policiesPass_of_checkPolicies passed
  have evaluated : ∀ kind, db.contextKinds.contains kind = true →
      db.selectionPolicy principal [draft.id] kind ∈
        effectivePolicies (db.contextPolicyState principal) [] [] := by
    intro kind known
    rw [Db.selectionPolicy_of_fresh fresh]
    exact Db.effectivePolicyFor_mem known [] []
  refine ⟨⟨rfl, rfl, ?_, ?_, ?_, ?_⟩, fun empty => nomatch empty⟩
  · exact fun kind known => passed.unambiguous _ (evaluated kind known)
  · intro context member
    cases List.mem_singleton.mp member
    change (db.selectionPolicy principal [draft.id] draft.kind).allowed = true
    rw [Db.selectionPolicy_of_fresh fresh, custom]
    exact permitted.1
  · intro kind known required
    have direct := passed.required _ (evaluated kind known) required
    rw [Db.selectionPolicy, effectivePolicyFor, evaluateEffectiveContextPolicy_kind] at direct
    exact ⟨_, List.mem_singleton.mpr rfl, (List.mem_singleton.mp direct).symm⟩
  · intro first firstMem second secondMem distinct
    cases List.mem_singleton.mp firstMem
    cases List.mem_singleton.mp secondMem
    exact absurd rfl distinct

/-! ## All routes -/

omit [IdentityHost] in
/-- The schema's foreign key on kinds survives every change of the contexts. -/
theorem kindsKnown_of_contextChange {newRow : ContextRow → Prop} {next : Db}
    (known : db.KindsKnown) (change : ContextChange newRow db next) : next.KindsKnown := by
  intro row rowMem
  cases change with
  | kinds contexts grown =>
      rw [contexts] at rowMem
      exact grown _ (known row rowMem)
  | insert added _ inserted addedKnown _ _ sameKinds =>
      rw [sameKinds]
      rcases (Table.mem_insert?_iff inserted).mp rowMem with older | rfl
      · exact known row older
      · exact addedKnown
  | update changed context found sameId sameKind _ _ contexts sameKinds =>
      rw [sameKinds]
      have lookedUp := Table.find?_eq_some_iff.mpr ⟨rowMem, rfl⟩
      rw [contexts] at lookedUp
      split at lookedUp
      · cases lookedUp
        rw [sameKind]
        exact known changed (Table.find?_eq_some_iff.mp found).1
      · exact known row (Table.find?_eq_some_iff.mp lookedUp).1
  | delete id _ contexts sameKinds =>
      rw [sameKinds]
      rw [contexts, Table.delete, Table.mem_deleteWhere_iff] at rowMem
      exact known row rowMem.1

omit [IdentityHost] in
theorem kindsKnown_of_createContext {draft : ContextCreateDraft} {audit : ContextAuditDraft}
    {now : Instant} {context : ContextDefinition} {next : Db} (known : db.KindsKnown)
    (ran : createContext draft audit now db = .ok (context, next)) : next.KindsKnown := by
  have evolved : ContextsEvolve (fun _ => True) db next := evolves_createContext trivial ran
  exact evolved.invariant (fun _ _ held change => kindsKnown_of_contextChange held change) known

/-- The ways in which the resolution of a governed write succeeds. -/
inductive GovernedRoute (db : Db) (newId : ContextId) (principal : String) :
    GovernedRequest → ResolvedContextSelection → Db → Prop where
  | context {envelope : Option ContextEnvelope} {selection : ResolvedContextSelection}
      (resolved : db.resolveContextSelection principal envelope none true = .ok selection) :
      GovernedRoute db newId principal (.context envelope) selection db
  | existing {resolution : ScopeResolution} {preview : Bool} {id : ContextId}
      {selection : ResolvedContextSelection}
      (resolved : db.resolveById principal id true = .ok selection) :
      GovernedRoute db newId principal (.legacy resolution preview) selection db
  | created {resolution : ScopeResolution} {preview : Bool} {id : ContextId} {next : Db}
      {selection : ResolvedContextSelection} (known : db.KindsKnown → next.KindsKnown)
      (resolved : next.resolveById principal id true = .ok selection) :
      GovernedRoute db newId principal (.legacy resolution preview)
        { selection with createdLegacyContext := some id } next
  | preview {resolution : ScopeResolution} {preview : Bool} {draft : ContextCreateDraft}
      {selection : ResolvedContextSelection} (drawn : draft.id = newId)
      (custom : draft.kind = ContextKind.custom)
      (checked : checkImplicitCreation (db.contextPolicyState principal) = .ok ())
      (previewed : previewCreation db principal (db.contextPolicyState principal) draft =
        .ok (.done selection)) :
      GovernedRoute db newId principal (.legacy resolution preview) selection db

/-- Creating the implied context and resolving it. -/
theorem Db.route_of_createAndResolve {newId : ContextId} {resolution : ScopeResolution}
    {preview : Bool} {draft : ContextCreateDraft} {audit : ContextAuditDraft} {now : Instant}
    {selection : ResolvedContextSelection} {next : Db}
    (ran : db.createAndResolve principal draft audit true now = (.ok selection, next)) :
    GovernedRoute db newId principal (.legacy resolution preview) selection next := by
  rw [Db.createAndResolve] at ran
  split at ran
  · rename_i created creation
    split at ran
    · rename_i resolved resolution
      cases ran
      exact .created (fun known => kindsKnown_of_createContext known creation) resolution
    · split at ran <;> cases ran
  · split at ran
    · obtain ⟨resolved, rfl⟩ := Prod.mk.inj ran
      exact .existing resolved
    · cases ran

omit [IdentityHost] in
/-- Where the scope of a write has no context yet, one is created or previewed. -/
theorem legacyCreation_cases {newId : ContextId} {scope : String}
    {mode : LegacyContextResolutionMode} {target : LegacyTarget}
    (ran : legacyCreation db newId principal scope mode = .ok target) :
    (∃ draft audit, target = .create draft audit) ∨
      ∃ draft : ContextCreateDraft, draft.id = newId ∧ draft.kind = ContextKind.custom ∧
        checkImplicitCreation (db.contextPolicyState principal) = .ok () ∧
        previewCreation db principal (db.contextPolicyState principal) draft = .ok target := by
  rw [legacyCreation] at ran
  obtain ⟨_, _, ran⟩ := bind_eq_ok.mp ran
  obtain ⟨_, checked, ran⟩ := bind_eq_ok.mp ran
  split at ran
  · cases ran
    exact Or.inl ⟨_, _, rfl⟩
  · exact Or.inr ⟨_, rfl, rfl, checked, ran⟩

/-- What the reading part of a legacy resolution hands on. -/
theorem Db.legacyTarget_cases {newId : ContextId} {resolution : ScopeResolution}
    {mode : LegacyContextResolutionMode} {target : LegacyTarget}
    (governed : mode.governedWrite = true)
    (ran : db.legacyTarget newId principal resolution mode = .ok target) :
    (∃ id, target = .existing id) ∨
      legacyCreation db newId principal resolution.scope mode = .ok target := by
  rw [Db.legacyTarget] at ran
  obtain ⟨_, ran⟩ := of_ensure_bind ran
  split at ran
  · obtain ⟨ungoverned, _⟩ := of_ensure_bind ran
    rw [governed] at ungoverned
    cases ungoverned
  · split at ran
    · cases ran
      exact Or.inl ⟨_, rfl⟩
    · exact Or.inr ran
    · cases ran

/-- Every successful resolution of a governed write takes one of the routes. -/
theorem Db.resolveGovernedWrite_cases {newId : ContextId} {request : GovernedRequest}
    {now : Instant} {selection : ResolvedContextSelection} {next : Db}
    (ran : db.resolveGovernedWrite newId principal request now = (.ok selection, next)) :
    GovernedRoute db newId principal request selection next := by
  cases request with
  | context envelope =>
      obtain ⟨resolved, rfl⟩ := Prod.mk.inj ran
      exact .context resolved
  | legacy resolution preview =>
      rw [Db.resolveGovernedWrite] at ran
      have governed : LegacyContextResolutionMode.governedWrite
          (if preview then .previewWrite else .write) = true := by
        cases preview <;> rfl
      rw [Db.resolveLegacyContextSelection, governed] at ran
      split at ran
      · cases ran
      · rename_i done target
        cases ran
        rcases Db.legacyTarget_cases governed target with ⟨_, absent⟩ | creation
        · cases absent
        · rcases legacyCreation_cases creation with
            ⟨_, _, absent⟩ | ⟨draft, drawn, custom, checked, previewed⟩
          · cases absent
          · exact .preview drawn custom checked previewed
      · obtain ⟨resolved, rfl⟩ := Prod.mk.inj ran
        exact .existing resolved
      · exact Db.route_of_createAndResolve ran

/-- A governed write whose context resolution succeeds meets the policies
evaluated for its final effective selection, and stays without contexts only
where it asked to and no kind is required. -/
theorem governed_write_meets_policies {newId : ContextId}
    {request : GovernedRequest} {now : Instant} {selection : ResolvedContextSelection} {next : Db}
    (known : db.KindsKnown) (fresh : db.contexts.contains newId = false)
    (ran : db.resolveGovernedWrite newId principal request now = (.ok selection, next)) :
    GovernedSelection next principal request.allowsUnresolved selection := by
  cases Db.resolveGovernedWrite_cases ran with
  | context resolved => exact Db.governedSelection_of_resolveContextSelection known resolved
  | existing resolved => exact Db.governedSelection_of_resolveContextSelection known resolved
  | created nextKnown resolved =>
      exact (Db.governedSelection_of_resolveContextSelection (nextKnown known) resolved).created _
  | preview drawn custom checked previewed =>
      rw [← drawn] at fresh
      exact governedSelection_of_previewCreation fresh checked custom previewed

/-- A store whose operator requires a project, with one project of its owner. -/
def projectStore : Db :=
  { Db.empty 3 with
    contextKinds := Table.empty.upsert ⟨ContextKind.project, "Project", true, true, 0, 0⟩
    contexts := Table.empty.upsert
      ⟨⟨⟨7⟩, ContextKind.project, "atlas", "Atlas", none, "owner", none, none, .active, false, 0, 0⟩,
        "atlas"⟩
    kindPolicies := Table.empty.upsert
      ⟨.operator, "", ContextKind.project,
        { ContextKindPolicy.default with required := some true }, 0⟩ }

/-- A host for requests that carry no identities. -/
@[reducible]
def plainIdentities : IdentityHost where
  normalizeGitRemote _ := .error "git remote must use a supported URL form"
  normalizeUri _ := .error "uri must be absolute"
  sha256Hex _ := ""

/-- The request for the stored project. -/
def projectRequest : GovernedRequest :=
  .context (some { ContextEnvelope.default with refs := [ContextReference.byId ⟨7⟩] })

omit [Host] [IdentityHost] in
theorem governed_write_meets_policies_project :
    projectStore.KindsKnown ∧ projectStore.contexts.contains ⟨9⟩ = false ∧
      ∃ selection, @Db.resolveGovernedWrite asciiHost plainIdentities projectStore ⟨9⟩ "owner"
        projectRequest 0 = (.ok selection, projectStore) ∧ selection.directIds = [⟨7⟩] ∧
        GovernedSelection projectStore "owner" false selection := by
  have known : projectStore.KindsKnown := by
    intro row rowMem
    cases List.mem_singleton.mp rowMem
    decide
  have fresh : projectStore.contexts.contains ⟨9⟩ = false := by decide
  have ran : ∃ selection, @Db.resolveGovernedWrite asciiHost plainIdentities projectStore ⟨9⟩
      "owner" projectRequest 0 = (.ok selection, projectStore) ∧ selection.directIds = [⟨7⟩] :=
    ⟨_, rfl, rfl⟩
  obtain ⟨selection, resolved, direct⟩ := ran
  exact ⟨known, fresh, selection, resolved, direct,
    @governed_write_meets_policies _ _ asciiHost plainIdentities _ _ _ _ _ known fresh resolved⟩

end LocalHold
