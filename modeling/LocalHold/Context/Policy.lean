import LocalHold.Context.Types

/-!
# Layered context policy

`evaluate_context_policy` merges an operator policy, a principal policy and the
most-specific anchor policies for one kind.  The merge is written as the four
stages of the source: operator defaults, the principal layer, the anchor layer
and the final operator ceilings.  `evaluate_effective_context_policy` selects
the layers from stored records and closes disabled kinds.
-/

namespace LocalHold

open Ordered

/-- The fully merged policy of one kind. -/
structure EffectiveContextPolicy where
  kind : ContextKind
  allowed : Bool
  required : Bool
  allowedCompanionKinds : Option (List ContextKind)
  allowedIdentitySchemes : List String
  agentCreation : Bool
  requireIdentity : Bool
  defaultContextId : Option ContextId
  includeDescendants : Bool
  guidance : List String
  ambiguities : List String
deriving DecidableEq

/-- The mutable variables of the merge. -/
structure PolicyMerge where
  allowed : Bool
  required : Bool
  agentCreation : Bool
  requireIdentity : Bool
  defaultContextId : Option ContextId
  includeDescendants : Bool
  guidance : List String
  allowedCompanionKinds : Option (OrdSet ContextKind)
  allowedIdentitySchemes : OrdSet String
  ambiguities : List String
deriving DecidableEq

/-- `default_identity_schemes`. -/
def defaultIdentitySchemes : OrdSet String :=
  OrdSet.ofList ["git_remote", "namespaced_id", "uri"]

/-- The stored form of an identity scheme. -/
def normalizeScheme (scheme : String) : String :=
  asciiLowercase (trim scheme)

/-- `normalized_scheme_set`. -/
def normalizedSchemeSet (schemes : List String) : OrdSet String :=
  OrdSet.ofList (schemes.map normalizeScheme)

/-- `intersect_optional_kind_set`: an absent next set changes nothing. -/
def intersectOptionalKindSet (current : Option (OrdSet ContextKind))
    (next : Option (List ContextKind)) : Option (OrdSet ContextKind) :=
  match next with
  | none => current
  | some kinds =>
      match current with
      | none => some (OrdSet.ofList kinds)
      | some set => some (set.inter (OrdSet.ofList kinds))

/-- Intersect the accepted schemes with the schemes a layer gives. -/
def intersectSchemes (current : OrdSet String) (next : Option (List String)) : OrdSet String :=
  match next with
  | none => current
  | some schemes => current.inter (normalizedSchemeSet schemes)

/-- `merge_anchor_bool`: a unanimous value replaces the target, a split one is
reported. -/
def mergeAnchorBool (field : String) (values : List Bool) (target : Bool)
    (ambiguities : List String) : Bool × List String :=
  match (OrdSet.ofList values).elems with
  | [] => (target, ambiguities)
  | [value] => (value, ambiguities)
  | _ => (target, ambiguities ++
      ["active anchor policies specify conflicting " ++ field ++ " values"])

/-- Trimmed, non-blank guidance of a policy. -/
def policyGuidance (policy : ContextKindPolicy) : Option String :=
  (policy.guidance.map trim).filter fun value => value != ""

/-- Append anchor guidance that is not already present. -/
def pushGuidance (guidance : List String) (next : Option String) : List String :=
  match next with
  | none => guidance
  | some value => if value ∈ guidance then guidance else guidance ++ [value]

/-- Whether the operator lets the kind be selected. -/
def operatorAllowed (operator : Option ContextKindPolicy) : Bool :=
  (operator.bind (·.allowed)).getD true

/-- Whether the operator leaves agent creation open. -/
def operatorCreationCeiling (operator : Option ContextKindPolicy) : Bool :=
  operator.bind (·.agentCreation) != some false

/-- Whether the operator demands a durable identity. -/
def operatorIdentityRequired (operator : Option ContextKindPolicy) : Bool :=
  operator.bind (·.requireIdentity) == some true

/-- Whether the operator requires the kind. -/
def operatorRequired (operator : Option ContextKindPolicy) : Bool :=
  operator.bind (·.required) == some true

/-- The values before any customization. -/
def operatorLayer (kind : ContextKind) (operator : Option ContextKindPolicy) : PolicyMerge :=
  let defaultProject := kind = ContextKind.project
  { allowed := operatorAllowed operator
    required := (operator.bind (·.required)).getD false
    agentCreation := (operator.bind (·.agentCreation)).getD defaultProject
    requireIdentity := (operator.bind (·.requireIdentity)).getD defaultProject
    defaultContextId := operator.bind (·.defaultContextId)
    includeDescendants := (operator.bind (·.includeDescendants)).getD false
    guidance := (operator.bind policyGuidance).toList
    allowedCompanionKinds := (operator.bind (·.allowedCompanionKinds)).map OrdSet.ofList
    allowedIdentitySchemes :=
      ((operator.bind (·.allowedIdentitySchemes)).map normalizedSchemeSet).getD
        defaultIdentitySchemes
    ambiguities := [] }

/-- The principal layer customizes values within the operator ceilings. -/
def mergePrincipal (operator : Option ContextKindPolicy) (policy : ContextKindPolicy)
    (merge : PolicyMerge) : PolicyMerge :=
  let denied := if policy.allowed = some false then false else merge.allowed
  { allowed := if operatorAllowed operator then policy.allowed.getD denied else denied
    required := if operatorRequired operator then merge.required
      else policy.required.getD merge.required
    agentCreation := if operatorCreationCeiling operator
      then policy.agentCreation.getD merge.agentCreation else false
    requireIdentity := if operatorIdentityRequired operator then merge.requireIdentity
      else policy.requireIdentity.getD merge.requireIdentity
    defaultContextId := policy.defaultContextId.or merge.defaultContextId
    includeDescendants := policy.includeDescendants.getD merge.includeDescendants
    guidance := merge.guidance ++ (policyGuidance policy).toList
    allowedCompanionKinds :=
      intersectOptionalKindSet merge.allowedCompanionKinds policy.allowedCompanionKinds
    allowedIdentitySchemes :=
      intersectSchemes merge.allowedIdentitySchemes policy.allowedIdentitySchemes
    ambiguities := merge.ambiguities }

/-- The anchor default and the ambiguity its conflicts report. -/
def mergeAnchorDefault (anchors : List ContextKindPolicy) (target : Option ContextId)
    (ambiguities : List String) : Option ContextId × List String :=
  match (OrdSet.ofList (anchors.filterMap (·.defaultContextId))).elems with
  | [] => (target, ambiguities)
  | [id] => (some id, ambiguities)
  | _ => (target, ambiguities ++
      ["active anchor policies specify conflicting default_context_id values"])

/-- The anchor layer: unanimous scalars replace, sets intersect, denials win. -/
def mergeAnchors (operator : Option ContextKindPolicy) (anchors : List ContextKindPolicy)
    (merge : PolicyMerge) : PolicyMerge :=
  let required :=
    mergeAnchorBool "required" (anchors.filterMap (·.required)) merge.required merge.ambiguities
  let requireIdentity :=
    mergeAnchorBool "require_identity" (anchors.filterMap (·.requireIdentity))
      merge.requireIdentity required.2
  let includeDescendants :=
    mergeAnchorBool "include_descendants" (anchors.filterMap (·.includeDescendants))
      merge.includeDescendants requireIdentity.2
  let defaults := mergeAnchorDefault anchors merge.defaultContextId includeDescendants.2
  { allowed :=
      if anchors.any (·.allowed == some false) then false
      else if operatorAllowed operator && anchors.any (·.allowed == some true) then true
      else merge.allowed
    required := required.1
    agentCreation :=
      if anchors.any (·.agentCreation == some false) || !operatorCreationCeiling operator
      then false
      else if anchors.any (·.agentCreation == some true) then true
      else merge.agentCreation
    requireIdentity := requireIdentity.1
    defaultContextId := defaults.1
    includeDescendants := includeDescendants.1
    guidance := anchors.foldl (fun guidance policy =>
      pushGuidance guidance (policyGuidance policy)) merge.guidance
    allowedCompanionKinds := anchors.foldl (fun kinds policy =>
      intersectOptionalKindSet kinds policy.allowedCompanionKinds) merge.allowedCompanionKinds
    allowedIdentitySchemes := anchors.foldl (fun schemes policy =>
      intersectSchemes schemes policy.allowedIdentitySchemes) merge.allowedIdentitySchemes
    ambiguities := defaults.2 }

/-- `evaluate_context_policy`: merge the layers and re-apply the operator
ceilings. -/
def evaluateContextPolicy (kind : ContextKind) (operator principal : Option ContextKindPolicy)
    (anchors : List ContextKindPolicy) : EffectiveContextPolicy :=
  let base := operatorLayer kind operator
  let customized :=
    match principal with
    | none => base
    | some policy => mergePrincipal operator policy base
  let merged := if anchors.isEmpty then customized else mergeAnchors operator anchors customized
  { kind := kind
    allowed := if operatorAllowed operator then merged.allowed else false
    required := if operatorRequired operator then true else merged.required
    allowedCompanionKinds := merged.allowedCompanionKinds.map OrdSet.elems
    allowedIdentitySchemes := merged.allowedIdentitySchemes.elems
    agentCreation := if operatorCreationCeiling operator then merged.agentCreation else false
    requireIdentity := if operatorIdentityRequired operator then true else merged.requireIdentity
    defaultContextId := merged.defaultContextId
    includeDescendants := merged.includeDescendants
    guidance := merged.guidance
    ambiguities := merged.ambiguities }

/-! ## Selecting the layers of a kind -/

/-- The parent that a record list states for a context; a later record with the
same identifier replaces an earlier one. -/
def recordParent (records : List ContextRecord) (id : ContextId) : Option ContextId :=
  (records.reverse.find? fun record => record.context.id = id).bind (·.context.parentId)

/-- The parent walk of `context_is_ancestor`.  The fuel bounds the walk by the
number of records: every visited context is a distinct record parent. -/
def ancestorWalk (records : List ContextRecord) (ancestor : ContextId) :
    Nat → List ContextId → Option ContextId → Bool
  | 0, _, _ => false
  | _ + 1, _, none => false
  | fuel + 1, visited, some cursor =>
      if cursor = ancestor then true
      else if cursor ∈ visited then false
      else ancestorWalk records ancestor fuel (cursor :: visited) (recordParent records cursor)

/-- `context_is_ancestor`. -/
def contextIsAncestor (records : List ContextRecord) (ancestor descendant : ContextId) : Bool :=
  ancestorWalk records ancestor (records.length + 1) [] (recordParent records descendant)

/-- The stored policy of a layer for a kind. -/
def layerPolicy (kindPolicies : List ContextKindPolicyRecord) (layer : ContextPolicyLayer)
    (kind : ContextKind) : Option ContextKindPolicy :=
  (kindPolicies.find? fun record => record.layer = layer ∧ record.kind = kind).map (·.policy)

/-- The active anchor records that state a policy for the kind. -/
def activeAnchorRecords (kind : ContextKind) (anchorPolicies : List ContextAnchorPolicyRecord)
    (activeContextIds : List ContextId) : List ContextAnchorPolicyRecord :=
  anchorPolicies.filter fun record =>
    decide (record.anchorContextId ∈ activeContextIds) && (record.policy.get kind).isSome

/-- The anchor records kept by the specificity test: no other active anchor
with a policy for the kind lies below them. -/
def specificAnchorRecords (kind : ContextKind) (anchorPolicies : List ContextAnchorPolicyRecord)
    (records : List ContextRecord) (activeContextIds : List ContextId) :
    List ContextAnchorPolicyRecord :=
  let candidates := activeAnchorRecords kind anchorPolicies activeContextIds
  let anchorIds := candidates.map (·.anchorContextId)
  candidates.filter fun candidate => !anchorIds.any fun other =>
    other != candidate.anchorContextId &&
      contextIsAncestor records candidate.anchorContextId other

/-- Whether a kind is defined and enabled. -/
def kindEnabled (kinds : List ContextKindDefinition) (kind : ContextKind) : Bool :=
  match kinds.find? (·.kind = kind) with
  | none => false
  | some definition => definition.enabled

/-- `evaluate_effective_context_policy`. -/
def evaluateEffectiveContextPolicy (kind : ContextKind) (kinds : List ContextKindDefinition)
    (kindPolicies : List ContextKindPolicyRecord)
    (anchorPolicies : List ContextAnchorPolicyRecord) (records : List ContextRecord)
    (activeContextIds : List ContextId) : EffectiveContextPolicy :=
  let anchors := (specificAnchorRecords kind anchorPolicies records activeContextIds).filterMap
    (·.policy.get kind)
  let effective := evaluateContextPolicy kind (layerPolicy kindPolicies .operator kind)
    (layerPolicy kindPolicies .principal kind) anchors
  if kindEnabled kinds kind then effective
  else
    { effective with
      allowed := false
      guidance := effective.guidance ++
        ["Context kind " ++ kind.name ++ " is disabled by the operator."] }

end LocalHold
