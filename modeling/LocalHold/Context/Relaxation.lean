import LocalHold.Context.Ceilings

/-!
# What overrides impose

The anchor overrides of a merge, over the operator and the principal, deny a
kind, require it, exclude companions of it, or conflict.  Replacing them by
other overrides tightens the evaluated policy as long as none of this is lifted.
-/

namespace LocalHold

open Ordered

/-! ## Unanimous scalars -/

/-- All given values agree. -/
def Unanimous {β : Type} (values : List β) : Prop :=
  ∀ first ∈ values, ∀ second ∈ values, first = second

/-- The collected values are none, one, or split. -/
theorem elems_ofList_cases {β : Type} [LinearOrder β] (values : List β) :
    ((OrdSet.ofList values).elems = [] ∧ values = []) ∨
      (∃ value ∈ values, (OrdSet.ofList values).elems = [value] ∧ Unanimous values) ∨
      (∃ first second rest, (OrdSet.ofList values).elems = first :: second :: rest ∧
        ¬Unanimous values) := by
  have member : ∀ value, value ∈ (OrdSet.ofList values).elems ↔ value ∈ values :=
    fun _ => OrdSet.mem_ofList
  match collected : (OrdSet.ofList values).elems with
  | [] =>
      refine Or.inl ⟨rfl, List.eq_nil_iff_forall_not_mem.mpr fun value given => ?_⟩
      rw [← member, collected] at given
      cases given
  | [value] =>
      refine Or.inr (Or.inl ⟨value, (member value).mp (by simp [collected]), rfl, ?_⟩)
      intro first firstMem second secondMem
      rw [← member, collected] at firstMem secondMem
      rw [List.mem_singleton.mp firstMem, List.mem_singleton.mp secondMem]
  | first :: second :: rest =>
      refine Or.inr (Or.inr ⟨first, second, rest, rfl, fun unanimous => ?_⟩)
      have distinct := (OrdSet.ofList values).nodup_elems
      rw [collected, List.nodup_cons] at distinct
      have equal := unanimous first ((member first).mp (by simp [collected])) second
        ((member second).mp (by simp [collected]))
      exact distinct.1 (by simp [equal])

theorem mergeAnchorBool_ambiguities {field : String} {values : List Bool} {target : Bool}
    {ambiguities : List String} :
    (mergeAnchorBool field values target ambiguities).2 = [] ↔
      ambiguities = [] ∧ Unanimous values := by
  rcases elems_ofList_cases values with
    ⟨collected, rfl⟩ | ⟨value, _, collected, unanimous⟩ | ⟨_, _, _, collected, split⟩
  · simp [mergeAnchorBool, collected, Unanimous]
  · simp [mergeAnchorBool, collected, unanimous]
  · simp [mergeAnchorBool, collected, split]

/-- A unanimous value replaces the target. -/
theorem mergeAnchorBool_value {field : String} {values : List Bool} {target : Bool}
    {ambiguities : List String} (unanimous : Unanimous values) {value : Bool}
    (member : value ∈ values) :
    (mergeAnchorBool field values target ambiguities).1 = value := by
  rcases elems_ofList_cases values with
    ⟨_, rfl⟩ | ⟨other, otherMem, collected, _⟩ | ⟨_, _, _, _, split⟩
  · cases member
  · simp [mergeAnchorBool, collected, unanimous other otherMem value member]
  · exact absurd unanimous split

theorem mergeAnchorDefault_ambiguities {anchors : List ContextKindPolicy}
    {target : Option ContextId} {ambiguities : List String} :
    (mergeAnchorDefault anchors target ambiguities).2 = [] ↔
      ambiguities = [] ∧ Unanimous (anchors.filterMap (·.defaultContextId)) := by
  rcases elems_ofList_cases (anchors.filterMap (·.defaultContextId)) with
    ⟨collected, absent⟩ | ⟨value, _, collected, unanimous⟩ | ⟨_, _, _, collected, split⟩
  · rw [mergeAnchorDefault, collected, absent]
    simp [Unanimous]
  · simp [mergeAnchorDefault, collected, unanimous]
  · simp [mergeAnchorDefault, collected, split]

/-- The scalars that overrides may split. -/
structure ScalarsAgree (anchors : List ContextKindPolicy) : Prop where
  required : Unanimous (anchors.filterMap (·.required))
  requireIdentity : Unanimous (anchors.filterMap (·.requireIdentity))
  includeDescendants : Unanimous (anchors.filterMap (·.includeDescendants))
  defaultContextId : Unanimous (anchors.filterMap (·.defaultContextId))

variable {kind : ContextKind} {operator principal : Option ContextKindPolicy}

theorem customizedLayer_ambiguities :
    (customizedLayer kind operator principal).ambiguities = [] := by
  cases principal <;> rfl

/-- A merge reports no ambiguity exactly when its overrides agree. -/
theorem mergedLayer_ambiguities {anchors : List ContextKindPolicy} :
    (mergedLayer kind operator principal anchors).ambiguities = [] ↔ ScalarsAgree anchors := by
  cases anchors with
  | nil =>
      have agree : ScalarsAgree [] := by
        constructor <;> exact fun first absent => absurd absent List.not_mem_nil
      simp only [mergedLayer, List.isEmpty_nil, if_true, customizedLayer_ambiguities, agree]
  | cons policy rest =>
      rw [mergedLayer, if_neg (by simp)]
      simp only [mergeAnchors, mergeAnchorDefault_ambiguities, mergeAnchorBool_ambiguities,
        customizedLayer_ambiguities, true_and]
      constructor
      · rintro ⟨⟨⟨required, requireIdentity⟩, includeDescendants⟩, defaults⟩
        exact ⟨required, requireIdentity, includeDescendants, defaults⟩
      · rintro ⟨required, requireIdentity, includeDescendants, defaults⟩
        exact ⟨⟨⟨required, requireIdentity⟩, includeDescendants⟩, defaults⟩

/-! ## What a merge imposes -/

/-- The kind is denied: by the operator, by an override, or, where no override
speaks about it, by what the operator and the principal leave. -/
def Denies (kind : ContextKind) (operator principal : Option ContextKindPolicy)
    (anchors : List ContextKindPolicy) : Prop :=
  operatorAllowed operator = false ∨ (∃ policy ∈ anchors, policy.allowed = some false) ∨
    (∀ policy ∈ anchors, policy.allowed = none) ∧
      (customizedLayer kind operator principal).allowed = false

/-- The kind is required: by the operator, by an override, or, where no override
speaks about it, by what the operator and the principal leave. -/
def Requires (kind : ContextKind) (operator principal : Option ContextKindPolicy)
    (anchors : List ContextKindPolicy) : Prop :=
  operatorRequired operator = true ∨ (∃ policy ∈ anchors, policy.required = some true) ∨
    (∀ policy ∈ anchors, policy.required = none) ∧
      (customizedLayer kind operator principal).required = true

/-- A layer gives a set of companions without this one. -/
def Excludes (operator principal : Option ContextKindPolicy) (anchors : List ContextKindPolicy)
    (companion : ContextKind) : Prop :=
  ∃ policy ∈ policyLayers operator principal anchors, ∃ given,
    policy.allowedCompanionKinds = some given ∧ companion ∉ given

/-- Other overrides in their place lift nothing that the narrow ones impose: no
denial, no requirement, no restriction of companions and no conflict. -/
structure LiftsNothing (kind : ContextKind) (operator principal : Option ContextKindPolicy)
    (narrow wide : List ContextKindPolicy) : Prop where
  denial : Denies kind operator principal narrow → Denies kind operator principal wide
  requirement : Requires kind operator principal narrow → Requires kind operator principal wide
  companions : ∀ companion, Excludes operator principal narrow companion →
    Excludes operator principal wide companion
  conflict : ¬ScalarsAgree narrow → ¬ScalarsAgree wide

variable {anchors narrow wide : List ContextKindPolicy}

/-- What the overrides of a merge say about selecting the kind. -/
theorem mergedLayer_allowed :
    (mergedLayer kind operator principal anchors).allowed =
      if anchors.any (·.allowed == some false) then false
      else if operatorAllowed operator && anchors.any (·.allowed == some true) then true
      else (customizedLayer kind operator principal).allowed := by
  cases anchors with
  | nil => simp [mergedLayer]
  | cons policy rest =>
      rw [mergedLayer, if_neg (by simp)]
      rfl

/-- Nothing speaks about the kind where it is neither allowed nor denied. -/
theorem allowed_unstated_of_not_any (undenied : ¬anchors.any (·.allowed == some false) = true)
    (ungranted : ¬anchors.any (·.allowed == some true) = true) :
    ∀ policy ∈ anchors, policy.allowed = none := by
  intro policy member
  cases stated : policy.allowed with
  | none => rfl
  | some value =>
      cases value with
      | false => exact absurd (List.any_eq_true.mpr ⟨policy, member, by simp [stated]⟩) undenied
      | true => exact absurd (List.any_eq_true.mpr ⟨policy, member, by simp [stated]⟩) ungranted

/-- The evaluated policy allows what is not denied. -/
theorem evaluateContextPolicy_allowed_iff :
    (evaluateContextPolicy kind operator principal anchors).allowed = true ↔
      ¬Denies kind operator principal anchors := by
  rw [evaluateContextPolicy_eq]
  dsimp only
  rw [mergedLayer_allowed, Denies]
  cases ceiling : operatorAllowed operator with
  | false => simp
  | true =>
      rw [if_pos rfl, Bool.true_and]
      by_cases denied : anchors.any (·.allowed == some false) = true
      · rw [if_pos denied]
        obtain ⟨policy, member, states⟩ := List.any_eq_true.mp denied
        have stated : ∃ policy ∈ anchors, policy.allowed = some false :=
          ⟨policy, member, by simpa using states⟩
        simp [stated]
      · rw [if_neg denied]
        have undenied : ¬∃ policy ∈ anchors, policy.allowed = some false := by
          rintro ⟨policy, member, stated⟩
          exact denied (List.any_eq_true.mpr ⟨policy, member, by simp [stated]⟩)
        by_cases granted : anchors.any (·.allowed == some true) = true
        · rw [if_pos granted]
          obtain ⟨policy, member, states⟩ := List.any_eq_true.mp granted
          have spoken : ¬∀ policy ∈ anchors, policy.allowed = none := by
            intro unstated
            rw [unstated policy member] at states
            cases states
          simp [undenied, spoken]
        · rw [if_neg granted]
          rw [and_iff_right (allowed_unstated_of_not_any denied granted)]
          simp [undenied]

/-- The evaluated policy requires what is required, where the overrides agree. -/
theorem evaluateContextPolicy_required_iff (agree : ScalarsAgree anchors) :
    (evaluateContextPolicy kind operator principal anchors).required = true ↔
      Requires kind operator principal anchors := by
  rw [evaluateContextPolicy_eq]
  dsimp only
  rw [Requires]
  cases demanded : operatorRequired operator with
  | true => simp
  | false =>
      have unanimous := agree.required
      rw [if_neg (by decide)]
      cases anchors with
      | nil => simp [mergedLayer]
      | cons policy rest =>
          rw [mergedLayer, if_neg (by simp)]
          simp only [mergeAnchors]
          cases stated : (policy :: rest).filterMap (·.required) with
          | nil =>
              have unstated : ∀ other ∈ policy :: rest, other.required = none := by
                intro other member
                exact List.filterMap_eq_nil_iff.mp stated other member
              have unasked : ¬∃ other ∈ policy :: rest, other.required = some true := by
                rintro ⟨other, member, states⟩
                rw [unstated other member] at states
                cases states
              rw [and_iff_right unstated, or_iff_right unasked]
              simp [mergeAnchorBool, OrdSet.ofList]
          | cons value values =>
              rw [stated] at unanimous
              rw [mergeAnchorBool_value unanimous List.mem_cons_self]
              have given : value ∈ (policy :: rest).filterMap (·.required) := by simp [stated]
              obtain ⟨other, member, states⟩ := List.mem_filterMap.mp given
              have spoken : ¬∀ other ∈ policy :: rest, other.required = none := by
                intro unstated
                rw [unstated other member] at states
                cases states
              simp only [spoken, false_and, or_false, Bool.false_eq_true, false_or]
              constructor
              · rintro rfl
                exact ⟨other, member, states⟩
              · rintro ⟨asking, askingMem, asks⟩
                have listed : true ∈ (policy :: rest).filterMap (·.required) :=
                  List.mem_filterMap.mpr ⟨asking, askingMem, asks⟩
                rw [stated] at listed
                exact unanimous _ List.mem_cons_self _ listed

/-- A policy that is at least as strict as another one. -/
structure Tightens (strict loose : EffectiveContextPolicy) : Prop where
  unambiguous : strict.ambiguities = [] → loose.ambiguities = []
  allowed : strict.allowed = true → loose.allowed = true
  required : strict.ambiguities = [] → loose.required = true → strict.required = true
  companions : ∀ companion,
    (∀ kinds, strict.allowedCompanionKinds = some kinds → companion ∈ kinds) →
    ∀ kinds, loose.allowedCompanionKinds = some kinds → companion ∈ kinds

theorem evaluateContextPolicy_companions {companion : ContextKind} :
    (∀ kinds, (evaluateContextPolicy kind operator principal anchors).allowedCompanionKinds =
        some kinds → companion ∈ kinds) ↔ ¬Excludes operator principal anchors companion := by
  have admitted : (∀ kinds, (evaluateContextPolicy kind operator principal
        anchors).allowedCompanionKinds = some kinds → companion ∈ kinds) ↔
      Admits (mergedLayer kind operator principal anchors).allowedCompanionKinds companion := by
    rw [evaluateContextPolicy_eq]
    simp only [Admits, Option.map_eq_some_iff, forall_exists_index, and_imp,
      forall_apply_eq_imp_iff₂]
    rfl
  rw [admitted, admits_mergedLayer, Excludes]
  push Not
  rfl

theorem evaluateContextPolicy_ambiguities :
    (evaluateContextPolicy kind operator principal anchors).ambiguities = [] ↔
      ScalarsAgree anchors := by
  rw [evaluateContextPolicy_eq]
  exact mergedLayer_ambiguities

/-- Overrides that lift nothing tighten the evaluated policy. -/
theorem LiftsNothing.tightens (lifts : LiftsNothing kind operator principal narrow wide) :
    Tightens (evaluateContextPolicy kind operator principal wide)
      (evaluateContextPolicy kind operator principal narrow) := by
  have agree : ScalarsAgree wide → ScalarsAgree narrow := by
    intro wideAgree
    by_contra split
    exact lifts.conflict split wideAgree
  constructor
  · intro unambiguous
    rw [evaluateContextPolicy_ambiguities] at unambiguous ⊢
    exact agree unambiguous
  · intro allowed
    rw [evaluateContextPolicy_allowed_iff] at allowed ⊢
    exact fun denied => allowed (lifts.denial denied)
  · intro unambiguous required
    rw [evaluateContextPolicy_ambiguities] at unambiguous
    rw [evaluateContextPolicy_required_iff (agree unambiguous)] at required
    exact (evaluateContextPolicy_required_iff unambiguous).mpr (lifts.requirement required)
  · intro companion admitted
    rw [evaluateContextPolicy_companions] at admitted ⊢
    exact fun excluded => admitted (lifts.companions companion excluded)

/-- The same holds of the policy of a kind that may be disabled. -/
theorem LiftsNothing.evaluateEffective {kinds : List ContextKindDefinition}
    {kindPolicies : List ContextKindPolicyRecord}
    {anchorPolicies : List ContextAnchorPolicyRecord} {strictRecords looseRecords : List ContextRecord}
    {strictIds looseIds : List ContextId}
    (lifts : LiftsNothing kind (layerPolicy kindPolicies .operator kind)
      (layerPolicy kindPolicies .principal kind)
      ((specificAnchorRecords kind anchorPolicies looseRecords looseIds).filterMap
        (·.policy.get kind))
      ((specificAnchorRecords kind anchorPolicies strictRecords strictIds).filterMap
        (·.policy.get kind))) :
    Tightens
      (evaluateEffectiveContextPolicy kind kinds kindPolicies anchorPolicies strictRecords strictIds)
      (evaluateEffectiveContextPolicy kind kinds kindPolicies anchorPolicies looseRecords
        looseIds) := by
  have tightens := lifts.tightens
  rw [evaluateEffectiveContextPolicy, evaluateEffectiveContextPolicy]
  split
  · exact tightens
  · exact ⟨tightens.unambiguous, fun denied => denied, tightens.required,
      tightens.companions⟩

end LocalHold
