import LocalHold.Context.Policy

/-!
# Operator ceilings and anchor symmetry

No layer of the policy merge weakens an operator rule, every set-valued result
is contained in each set a layer supplies, and the anchor layer depends only on
which anchor policies are present.
-/

namespace LocalHold

open Ordered

/-! ## Folding the set-valued fields -/

theorem mem_intersectSchemes {current : OrdSet String} {next : Option (List String)}
    {scheme : String} :
    scheme ∈ intersectSchemes current next ↔
      scheme ∈ current ∧ ∀ given, next = some given → scheme ∈ given.map normalizeScheme := by
  cases next with
  | none => simp [intersectSchemes]
  | some schemes => simp [intersectSchemes, normalizedSchemeSet]

theorem mem_foldl_intersectSchemes {anchors : List ContextKindPolicy} {current : OrdSet String}
    {scheme : String} :
    scheme ∈ anchors.foldl (fun schemes policy =>
        intersectSchemes schemes policy.allowedIdentitySchemes) current ↔
      scheme ∈ current ∧ ∀ policy ∈ anchors, ∀ given,
        policy.allowedIdentitySchemes = some given → scheme ∈ given.map normalizeScheme := by
  induction anchors generalizing current with
  | nil => simp
  | cons policy rest inductionHypothesis =>
      rw [List.foldl_cons, inductionHypothesis, mem_intersectSchemes]
      simp only [List.forall_mem_cons]
      tauto

/-- What a companion set admits: everything while no layer has given a set. -/
def Admits (kinds : Option (OrdSet ContextKind)) (kind : ContextKind) : Prop :=
  ∀ set, kinds = some set → kind ∈ set

theorem admits_intersectOptionalKindSet {current : Option (OrdSet ContextKind)}
    {next : Option (List ContextKind)} {kind : ContextKind} :
    Admits (intersectOptionalKindSet current next) kind ↔
      Admits current kind ∧ ∀ given, next = some given → kind ∈ given := by
  cases next with
  | none => simp [intersectOptionalKindSet]
  | some kinds =>
      cases current with
      | none => simp [intersectOptionalKindSet, Admits]
      | some set => simp [intersectOptionalKindSet, Admits]

theorem isSome_intersectOptionalKindSet {current : Option (OrdSet ContextKind)}
    {next : Option (List ContextKind)} :
    (intersectOptionalKindSet current next).isSome = (current.isSome || next.isSome) := by
  cases next with
  | none => simp [intersectOptionalKindSet]
  | some kinds => cases current <;> simp [intersectOptionalKindSet]

theorem admits_foldl_companions {anchors : List ContextKindPolicy}
    {current : Option (OrdSet ContextKind)} {kind : ContextKind} :
    Admits (anchors.foldl (fun kinds policy =>
        intersectOptionalKindSet kinds policy.allowedCompanionKinds) current) kind ↔
      Admits current kind ∧ ∀ policy ∈ anchors, ∀ given,
        policy.allowedCompanionKinds = some given → kind ∈ given := by
  induction anchors generalizing current with
  | nil => simp
  | cons policy rest inductionHypothesis =>
      rw [List.foldl_cons, inductionHypothesis, admits_intersectOptionalKindSet]
      simp only [List.forall_mem_cons]
      tauto

theorem isSome_foldl_companions {anchors : List ContextKindPolicy}
    {current : Option (OrdSet ContextKind)} :
    (anchors.foldl (fun kinds policy =>
        intersectOptionalKindSet kinds policy.allowedCompanionKinds) current).isSome =
      (current.isSome || anchors.any (·.allowedCompanionKinds.isSome)) := by
  induction anchors generalizing current with
  | nil => simp
  | cons policy rest inductionHypothesis =>
      rw [List.foldl_cons, inductionHypothesis, isSome_intersectOptionalKindSet, List.any_cons,
        Bool.or_assoc]

/-- A companion set is determined by whether it is given and what it admits. -/
theorem companions_ext {first second : Option (OrdSet ContextKind)}
    (sameGiven : first.isSome = second.isSome)
    (sameAdmits : ∀ kind, Admits first kind ↔ Admits second kind) : first = second := by
  cases first with
  | none =>
      cases second with
      | none => rfl
      | some set => simp at sameGiven
  | some firstSet =>
      cases second with
      | none => simp at sameGiven
      | some secondSet =>
          congr 1
          apply OrdSet.ext_mem
          intro kind
          simpa [Admits] using sameAdmits kind

/-! ## Guidance -/

/-- Guidance grows by the distinct new values, in first-seen order. -/
theorem foldl_pushGuidance (anchors : List ContextKindPolicy) (base : List String) :
    ∃ added, anchors.foldl (fun guidance policy =>
        pushGuidance guidance (policyGuidance policy)) base = base ++ added ∧ added.Nodup ∧
      ∀ value, value ∈ added ↔
        value ∉ base ∧ ∃ policy ∈ anchors, policyGuidance policy = some value := by
  induction anchors generalizing base with
  | nil => exact ⟨[], by simp⟩
  | cons policy rest inductionHypothesis =>
      rw [List.foldl_cons]
      cases given : policyGuidance policy with
      | none =>
          obtain ⟨added, foldEq, nodup, members⟩ := inductionHypothesis base
          refine ⟨added, by simpa [pushGuidance] using foldEq, nodup, ?_⟩
          intro value
          rw [members value]
          simp [given]
      | some value =>
          by_cases present : value ∈ base
          · obtain ⟨added, foldEq, nodup, members⟩ := inductionHypothesis base
            refine ⟨added, by simpa [pushGuidance, present] using foldEq, nodup, ?_⟩
            intro other
            rw [members other]
            simp only [List.mem_cons, exists_eq_or_imp, given, Option.some.injEq]
            constructor
            · rintro ⟨absent, later⟩
              exact ⟨absent, Or.inr later⟩
            · rintro ⟨absent, equal | later⟩
              · exact absurd (equal ▸ present) absent
              · exact ⟨absent, later⟩
          · obtain ⟨added, foldEq, nodup, members⟩ := inductionHypothesis (base ++ [value])
            refine ⟨value :: added, by simpa [pushGuidance, present] using foldEq, ?_, ?_⟩
            · rw [List.nodup_cons, members value]
              simp [nodup]
            · intro other
              rw [List.mem_cons, members other]
              simp only [List.mem_append, List.mem_cons, List.not_mem_nil, or_false, not_or,
                exists_eq_or_imp, given, Option.some.injEq]
              constructor
              · rintro (rfl | ⟨⟨absent, _⟩, later⟩)
                · exact ⟨present, Or.inl rfl⟩
                · exact ⟨absent, Or.inr later⟩
              · rintro ⟨absent, equal | later⟩
                · exact Or.inl equal.symm
                · by_cases same : other = value
                  · exact Or.inl same
                  · exact Or.inr ⟨⟨absent, same⟩, later⟩

/-- Anchor lists with the same members add the same guidance, up to order. -/
theorem foldl_pushGuidance_perm {first second : List ContextKindPolicy} (base : List String)
    (sameMembers : ∀ policy, policy ∈ first ↔ policy ∈ second) :
    (first.foldl (fun guidance policy => pushGuidance guidance (policyGuidance policy))
        base).Perm
      (second.foldl (fun guidance policy => pushGuidance guidance (policyGuidance policy))
        base) := by
  obtain ⟨firstAdded, firstEq, firstNodup, firstMembers⟩ := foldl_pushGuidance first base
  obtain ⟨secondAdded, secondEq, secondNodup, secondMembers⟩ := foldl_pushGuidance second base
  rw [firstEq, secondEq]
  apply List.Perm.append_left
  rw [List.perm_ext_iff_of_nodup firstNodup secondNodup]
  intro value
  rw [firstMembers value, secondMembers value]
  simp only [sameMembers]

/-! ## The anchor layer depends on membership only -/

theorem any_congr_mem {first second : List ContextKindPolicy} (test : ContextKindPolicy → Bool)
    (sameMembers : ∀ policy, policy ∈ first ↔ policy ∈ second) :
    first.any test = second.any test := by
  rw [Bool.eq_iff_iff, List.any_eq_true, List.any_eq_true]
  simp only [sameMembers]

theorem filterMap_mem_congr {β : Type} {first second : List ContextKindPolicy}
    (field : ContextKindPolicy → Option β)
    (sameMembers : ∀ policy, policy ∈ first ↔ policy ∈ second) (value : β) :
    value ∈ first.filterMap field ↔ value ∈ second.filterMap field := by
  simp only [List.mem_filterMap, sameMembers]

theorem mergeAnchorBool_congr (field : String) {first second : List Bool}
    (sameMembers : ∀ value, value ∈ first ↔ value ∈ second) (target : Bool)
    (ambiguities : List String) :
    mergeAnchorBool field first target ambiguities =
      mergeAnchorBool field second target ambiguities := by
  unfold mergeAnchorBool
  rw [OrdSet.ofList_congr sameMembers]

theorem mergeAnchorDefault_congr {first second : List ContextKindPolicy}
    (sameMembers : ∀ policy, policy ∈ first ↔ policy ∈ second) (target : Option ContextId)
    (ambiguities : List String) :
    mergeAnchorDefault first target ambiguities = mergeAnchorDefault second target ambiguities := by
  unfold mergeAnchorDefault
  rw [OrdSet.ofList_congr (filterMap_mem_congr (·.defaultContextId) sameMembers)]

theorem mergeAnchors_congr (operator : Option ContextKindPolicy)
    {first second : List ContextKindPolicy}
    (sameMembers : ∀ policy, policy ∈ first ↔ policy ∈ second) (merge : PolicyMerge) :
    { mergeAnchors operator first merge with guidance := [] } =
        { mergeAnchors operator second merge with guidance := [] } ∧
      (mergeAnchors operator first merge).guidance.Perm
        (mergeAnchors operator second merge).guidance := by
  refine ⟨?_, foldl_pushGuidance_perm merge.guidance sameMembers⟩
  have companionsEq : (mergeAnchors operator first merge).allowedCompanionKinds =
      (mergeAnchors operator second merge).allowedCompanionKinds := by
    apply companions_ext
    · simp only [mergeAnchors, isSome_foldl_companions]
      rw [any_congr_mem (·.allowedCompanionKinds.isSome) sameMembers]
    · intro kind
      simp only [mergeAnchors, admits_foldl_companions, sameMembers]
  have schemesEq : (mergeAnchors operator first merge).allowedIdentitySchemes =
      (mergeAnchors operator second merge).allowedIdentitySchemes := by
    apply OrdSet.ext_mem
    intro scheme
    simp only [mergeAnchors, mem_foldl_intersectSchemes, sameMembers]
  simp only [mergeAnchors] at companionsEq schemesEq ⊢
  rw [companionsEq, schemesEq, any_congr_mem (·.allowed == some false) sameMembers,
    any_congr_mem (·.allowed == some true) sameMembers,
    any_congr_mem (·.agentCreation == some false) sameMembers,
    any_congr_mem (·.agentCreation == some true) sameMembers]
  simp only [mergeAnchorBool_congr _ (filterMap_mem_congr (·.required) sameMembers),
    mergeAnchorBool_congr _ (filterMap_mem_congr (·.requireIdentity) sameMembers),
    mergeAnchorBool_congr _ (filterMap_mem_congr (·.includeDescendants) sameMembers),
    mergeAnchorDefault_congr sameMembers]

/-! ## The merged policy -/

/-- The policies that take part in a merge, from the operator to the anchors. -/
def policyLayers (operator principal : Option ContextKindPolicy)
    (anchors : List ContextKindPolicy) : List ContextKindPolicy :=
  operator.toList ++ principal.toList ++ anchors

/-- The state of the merge after the operator and principal layers. -/
def customizedLayer (kind : ContextKind) (operator principal : Option ContextKindPolicy) :
    PolicyMerge :=
  match principal with
  | none => operatorLayer kind operator
  | some policy => mergePrincipal operator policy (operatorLayer kind operator)

/-- The state of the merge before the final ceilings. -/
def mergedLayer (kind : ContextKind) (operator principal : Option ContextKindPolicy)
    (anchors : List ContextKindPolicy) : PolicyMerge :=
  if anchors.isEmpty then customizedLayer kind operator principal
  else mergeAnchors operator anchors (customizedLayer kind operator principal)

theorem admits_mergedLayer {kind : ContextKind} {operator principal : Option ContextKindPolicy}
    {anchors : List ContextKindPolicy} {companion : ContextKind} :
    Admits (mergedLayer kind operator principal anchors).allowedCompanionKinds companion ↔
      ∀ policy ∈ policyLayers operator principal anchors, ∀ given,
        policy.allowedCompanionKinds = some given → companion ∈ given := by
  have base : Admits (operatorLayer kind operator).allowedCompanionKinds companion ↔
      ∀ policy ∈ operator, ∀ given,
        policy.allowedCompanionKinds = some given → companion ∈ given := by
    cases operator with
    | none => simp [operatorLayer, Admits]
    | some policy => cases given : policy.allowedCompanionKinds <;>
        simp [operatorLayer, Admits, given]
  have customized : Admits (customizedLayer kind operator principal).allowedCompanionKinds
      companion ↔ ∀ policy ∈ operator.toList ++ principal.toList, ∀ given,
        policy.allowedCompanionKinds = some given → companion ∈ given := by
    cases principal with
    | none => simpa [customizedLayer] using base
    | some policy =>
        simp only [customizedLayer, mergePrincipal, admits_intersectOptionalKindSet, base]
        simp only [List.forall_mem_append, Option.mem_toList, Option.mem_def, Option.some.injEq,
          forall_eq']
  rw [policyLayers, List.forall_mem_append, ← customized, mergedLayer]
  cases anchors with
  | nil => simp
  | cons policy rest =>
      rw [if_neg (by simp)]
      exact admits_foldl_companions

theorem isSome_mergedLayer {kind : ContextKind} {operator principal : Option ContextKindPolicy}
    {anchors : List ContextKindPolicy} {policy : ContextKindPolicy}
    (layer : policy ∈ policyLayers operator principal anchors)
    (given : policy.allowedCompanionKinds.isSome = true) :
    (mergedLayer kind operator principal anchors).allowedCompanionKinds.isSome = true := by
  have customized : policy ∈ operator.toList ++ principal.toList →
      (customizedLayer kind operator principal).allowedCompanionKinds.isSome = true := by
    intro early
    rcases List.mem_append.mp early with fromOperator | fromPrincipal
    · have operatorEq : operator = some policy := by simpa using fromOperator
      subst operatorEq
      cases principal <;> simp [customizedLayer, mergePrincipal, operatorLayer, given,
        isSome_intersectOptionalKindSet]
    · have principalEq : principal = some policy := by simpa using fromPrincipal
      subst principalEq
      simp [customizedLayer, mergePrincipal, isSome_intersectOptionalKindSet, given]
  unfold mergedLayer
  rcases List.mem_append.mp layer with early | fromAnchors
  · split
    · exact customized early
    · simp only [mergeAnchors, isSome_foldl_companions, customized early, Bool.true_or]
  · rw [if_neg (by simp [List.ne_nil_of_mem fromAnchors])]
    simp only [mergeAnchors, isSome_foldl_companions, Bool.or_eq_true, List.any_eq_true]
    exact Or.inr ⟨policy, fromAnchors, given⟩

theorem schemes_mergedLayer {kind : ContextKind} {operator principal : Option ContextKindPolicy}
    {anchors : List ContextKindPolicy} {scheme : String}
    (accepted : scheme ∈ (mergedLayer kind operator principal anchors).allowedIdentitySchemes) :
    ∀ policy ∈ policyLayers operator principal anchors, ∀ given,
      policy.allowedIdentitySchemes = some given → scheme ∈ given.map normalizeScheme := by
  have base : scheme ∈ (operatorLayer kind operator).allowedIdentitySchemes →
      ∀ policy ∈ operator, ∀ given,
        policy.allowedIdentitySchemes = some given → scheme ∈ given.map normalizeScheme := by
    rintro present policy rfl given givenEq
    simpa [operatorLayer, givenEq, normalizedSchemeSet] using present
  have customized : scheme ∈ (customizedLayer kind operator principal).allowedIdentitySchemes →
      ∀ policy ∈ operator.toList ++ principal.toList, ∀ given,
        policy.allowedIdentitySchemes = some given → scheme ∈ given.map normalizeScheme := by
    intro present
    cases principal with
    | none => simpa using base present
    | some policy =>
        simp only [customizedLayer, mergePrincipal, mem_intersectSchemes] at present
        simp only [List.forall_mem_append, Option.mem_toList, Option.some.injEq, forall_eq']
        exact ⟨base present.1, present.2⟩
  rw [policyLayers, List.forall_mem_append]
  unfold mergedLayer at accepted
  split at accepted
  · rename_i empty
    have noAnchors : anchors = [] := by simpa using empty
    exact ⟨customized accepted, by simp [noAnchors]⟩
  · simp only [mergeAnchors, mem_foldl_intersectSchemes] at accepted
    exact ⟨customized accepted.1, accepted.2⟩

theorem mergedLayer_congr (kind : ContextKind) (operator principal : Option ContextKindPolicy)
    {first second : List ContextKindPolicy}
    (sameMembers : ∀ policy, policy ∈ first ↔ policy ∈ second) :
    { mergedLayer kind operator principal first with guidance := [] } =
        { mergedLayer kind operator principal second with guidance := [] } ∧
      (mergedLayer kind operator principal first).guidance.Perm
        (mergedLayer kind operator principal second).guidance := by
  have sameEmpty : first.isEmpty = second.isEmpty := by
    rw [Bool.eq_iff_iff, List.isEmpty_iff, List.isEmpty_iff, List.eq_nil_iff_forall_not_mem,
      List.eq_nil_iff_forall_not_mem]
    simp only [sameMembers]
  unfold mergedLayer
  rw [sameEmpty]
  split
  · exact ⟨rfl, List.Perm.refl _⟩
  · exact mergeAnchors_congr operator sameMembers (customizedLayer kind operator principal)

/-- The evaluated policy is the merged state under the final ceilings. -/
theorem evaluateContextPolicy_eq (kind : ContextKind)
    (operator principal : Option ContextKindPolicy) (anchors : List ContextKindPolicy) :
    evaluateContextPolicy kind operator principal anchors =
      let merged := mergedLayer kind operator principal anchors
      { kind := kind
        allowed := if operatorAllowed operator then merged.allowed else false
        required := if operatorRequired operator then true else merged.required
        allowedCompanionKinds := merged.allowedCompanionKinds.map OrdSet.elems
        allowedIdentitySchemes := merged.allowedIdentitySchemes.elems
        agentCreation := if operatorCreationCeiling operator then merged.agentCreation else false
        requireIdentity :=
          if operatorIdentityRequired operator then true else merged.requireIdentity
        defaultContextId := merged.defaultContextId
        includeDescendants := merged.includeDescendants
        guidance := merged.guidance
        ambiguities := merged.ambiguities } := by
  cases principal <;> rfl

theorem mergedLayer_denied {kind : ContextKind} {operator principal : Option ContextKindPolicy}
    {anchors : List ContextKindPolicy} {policy : ContextKindPolicy} (member : policy ∈ anchors) :
    (policy.allowed = some false →
      (mergedLayer kind operator principal anchors).allowed = false) ∧
    (policy.agentCreation = some false →
      (mergedLayer kind operator principal anchors).agentCreation = false) := by
  unfold mergedLayer
  rw [if_neg (by simp [List.ne_nil_of_mem member])]
  constructor
  · intro denied
    have found : anchors.any (·.allowed == some false) = true :=
      List.any_eq_true.mpr ⟨policy, member, by simp [denied]⟩
    simp [mergeAnchors, found]
  · intro denied
    have found : anchors.any (·.agentCreation == some false) = true :=
      List.any_eq_true.mpr ⟨policy, member, by simp [denied]⟩
    simp [mergeAnchors, found]

/-- Operator denials and requirements survive every merge, anchor denials win,
set-valued results are contained in every given set, the anchor layer does not
depend on the order or repetition of anchors, and a disabled or unknown kind is
never allowed. -/
theorem evaluateContextPolicy_respects_ceilings (kind : ContextKind)
    (operator principal : Option ContextKindPolicy) (anchors : List ContextKindPolicy) :
    let effective := evaluateContextPolicy kind operator principal anchors
    (operator.bind (·.allowed) = some false → effective.allowed = false) ∧
    (operator.bind (·.agentCreation) = some false → effective.agentCreation = false) ∧
    (operator.bind (·.required) = some true → effective.required = true) ∧
    (operator.bind (·.requireIdentity) = some true → effective.requireIdentity = true) ∧
    (∀ policy ∈ anchors, policy.allowed = some false → effective.allowed = false) ∧
    (∀ policy ∈ anchors, policy.agentCreation = some false → effective.agentCreation = false) ∧
    (∀ policy ∈ policyLayers operator principal anchors, ∀ given,
      policy.allowedCompanionKinds = some given →
        ∃ companions, effective.allowedCompanionKinds = some companions ∧
          ∀ companion ∈ companions, companion ∈ given) ∧
    (∀ policy ∈ policyLayers operator principal anchors, ∀ given,
      policy.allowedIdentitySchemes = some given →
        ∀ scheme ∈ effective.allowedIdentitySchemes, scheme ∈ given.map normalizeScheme) ∧
    (∀ others : List ContextKindPolicy, (∀ policy, policy ∈ anchors ↔ policy ∈ others) →
      { effective with guidance := [] } =
          { evaluateContextPolicy kind operator principal others with guidance := [] } ∧
        effective.guidance.Perm (evaluateContextPolicy kind operator principal others).guidance) ∧
    (∀ (kinds : List ContextKindDefinition) (kindPolicies : List ContextKindPolicyRecord)
        (anchorPolicies : List ContextAnchorPolicyRecord) (records : List ContextRecord)
        (activeContextIds : List ContextId),
      (∀ definition, kinds.find? (·.kind = kind) = some definition →
        definition.enabled = false) →
      (evaluateEffectiveContextPolicy kind kinds kindPolicies anchorPolicies records
        activeContextIds).allowed = false) := by
  refine ⟨?_, ?_, ?_, ?_, ?_, ?_, ?_, ?_, ?_, ?_⟩
  · intro denied
    simp [evaluateContextPolicy, operatorAllowed, denied]
  · intro denied
    simp [evaluateContextPolicy, operatorCreationCeiling, denied]
  · intro required
    simp [evaluateContextPolicy, operatorRequired, required]
  · intro required
    simp [evaluateContextPolicy, operatorIdentityRequired, required]
  · intro policy member denied
    simp [evaluateContextPolicy_eq, (mergedLayer_denied member).1 denied]
  · intro policy member denied
    simp [evaluateContextPolicy_eq, (mergedLayer_denied member).2 denied]
  · intro policy layer given givenEq
    have isGiven : (mergedLayer kind operator principal anchors).allowedCompanionKinds.isSome =
        true := isSome_mergedLayer layer (by simp [givenEq])
    obtain ⟨set, setEq⟩ := Option.isSome_iff_exists.mp isGiven
    refine ⟨set.elems, by simp [evaluateContextPolicy_eq, setEq], ?_⟩
    intro companion companionMem
    have admitted : Admits (mergedLayer kind operator principal anchors).allowedCompanionKinds
        companion := by
      intro other otherEq
      rw [setEq] at otherEq
      cases otherEq
      exact companionMem
    exact admits_mergedLayer.mp admitted policy layer given givenEq
  · intro policy layer given givenEq scheme accepted
    rw [evaluateContextPolicy_eq] at accepted
    exact schemes_mergedLayer accepted policy layer given givenEq
  · intro others sameMembers
    obtain ⟨fieldsEq, guidancePerm⟩ := mergedLayer_congr kind operator principal sameMembers
    simp only [PolicyMerge.mk.injEq, true_and] at fieldsEq
    simp only [evaluateContextPolicy_eq, EffectiveContextPolicy.mk.injEq, true_and]
    refine ⟨?_, guidancePerm⟩
    simp only [fieldsEq, and_self]
  · intro kinds kindPolicies anchorPolicies records activeContextIds disabled
    have closed : kindEnabled kinds kind = false := by
      unfold kindEnabled
      cases found : kinds.find? (·.kind = kind) with
      | none => rfl
      | some definition => exact disabled definition found
    simp [evaluateEffectiveContextPolicy, closed]

end LocalHold
