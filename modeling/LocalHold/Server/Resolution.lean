import LocalHold.Context.Policy
import LocalHold.Server.Protocol

/-!
# Context resolution

`resolve_context_selection` of `server/mod.rs`, phase by phase: exact
references, hints, the empty selection with its policy defaults, and the policy
checks on the expanded selection.  One resolution reads one stored state.
-/

namespace LocalHold

open Relational Transition.Checked

/-! ## Effective policies -/

/-- The policy rows of one resolution. -/
structure ContextPolicyState where
  kinds : List ContextKindDefinition
  kindPolicies : List ContextKindPolicyRecord
  anchorPolicies : List ContextAnchorPolicyRecord

/-- `context_policy_state`. -/
def Db.contextPolicyState (db : Db) (principal : String) : ContextPolicyState where
  kinds := db.listContextKinds
  kindPolicies := db.listContextKindPolicies principal
  anchorPolicies := db.listContextAnchorPolicies principal

/-- `effective_policy_for`. -/
def effectivePolicyFor (state : ContextPolicyState) (records : List ContextRecord)
    (kind : ContextKind) (activeContextIds : List ContextId) : EffectiveContextPolicy :=
  evaluateEffectiveContextPolicy kind state.kinds state.kindPolicies state.anchorPolicies records
    activeContextIds

/-- The policies of all kinds for a selection. -/
def effectivePolicies (state : ContextPolicyState) (records : List ContextRecord)
    (activeContextIds : List ContextId) : List EffectiveContextPolicy :=
  state.kinds.map fun definition => effectivePolicyFor state records definition.kind activeContextIds

/-- The records handed to the policy evaluation: definitions only. -/
def policyRecords (effective : List ContextDefinition) : List ContextRecord :=
  effective.map fun context => ⟨context, [], [], []⟩

/-- `push_unique`. -/
def pushUnique (values : List String) (value : String) : List String :=
  if value ∈ values then values else values ++ [value]

/-- `policy_guidance_for`. -/
def policyGuidanceFor (policies : List EffectiveContextPolicy) : List String :=
  policies.foldl (fun guidance policy =>
    (policy.ambiguities.map fun ambiguity =>
      "Policy ambiguity for " ++ policy.kind.name ++ ": " ++ ambiguity).foldl pushUnique
      (policy.guidance.foldl pushUnique guidance)) contextPolicyGuidance

variable [Host] [IdentityHost]

/-! ## Exact references and hints -/

/-- The variables of the lookup phases. -/
structure SelectionState where
  directIds : List ContextId
  resolved : Table (fun record : ContextRecord => record.context.id)
  candidates : List ContextCandidate
  unresolvedExplicitRef : Bool
  unresolvedKeyRefs : List (String × Option ContextKind)
  unresolvedLookupValues : List String

/-- Nothing looked up yet. -/
def SelectionState.start : SelectionState :=
  ⟨[], Table.empty, [], false, [], []⟩

/-- Select a record, once. -/
def SelectionState.select (state : SelectionState) (record : ContextRecord) : SelectionState :=
  { state with
    directIds := if record.context.id ∈ state.directIds then state.directIds
      else state.directIds ++ [record.context.id]
    resolved := state.resolved.upsert record }

/-- One round of the loop over `context.refs`. -/
def resolveReference (db : Db) (principal : String) (state : SelectionState)
    (reference : ContextReference) : Except ToolError SelectionState := do
  let lookup ← exactContextLookup reference
  match db.findContextRecords principal false lookup with
  | [record] => return state.select record
  | [] =>
      return { state with
        unresolvedExplicitRef := true
        unresolvedKeyRefs := state.unresolvedKeyRefs ++
          (reference.key.map fun key => (key, reference.kind)).toList }
  | records =>
      .error (contextResolutionError .contextAmbiguous "context.refs"
        "context locator matched multiple authorized contexts"
        (ambiguousCandidates "ambiguous_exact_locator" records))

/-- One round of the loop over hints and the query. -/
def resolveLookupValue (db : Db) (principal : String) (state : SelectionState)
    (value : String) : Except ToolError SelectionState :=
  match db.findContextRecords principal false (.key none (normalizeContextKey value)) with
  | [record] => .ok (state.select record)
  | [] => .ok { state with unresolvedLookupValues := state.unresolvedLookupValues ++ [value] }
  | records =>
      .error (contextResolutionError .contextAmbiguous "context.hints"
        "context alias or hint matched multiple authorized contexts"
        (ambiguousCandidates "ambiguous_alias_or_hint" records))

/-- Whether a resolver hint of a record occurs in a normalized value. -/
def matchesResolverHint (normalized : String) (record : ContextRecord) : Bool :=
  record.hints.any fun hint =>
    normalizeContextKey hint != "" &&
      decide ((normalizeContextKey hint).toList <:+: normalized.toList)

/-- One round of the loop over values without an exact match. -/
def resolveHint (records : List ContextRecord) (state : SelectionState) (value : String) :
    Except ToolError SelectionState :=
  match records.filter (matchesResolverHint (normalizeContextKey value)) with
  | [record] => .ok (state.select record)
  | [] =>
      .ok { state with
        candidates := state.candidates ++ fuzzyContextCandidates records value none }
  | found =>
      .error (contextResolutionError .contextAmbiguous "context.hints"
        "context hint matched multiple authorized contexts"
        (ambiguousCandidates "ambiguous_hint" found))

/-- The values looked up by key: the hints and a non-blank query. -/
def lookupValues (envelope : ContextEnvelope) (query : Option String) : List String :=
  envelope.hints ++ ((query.map trim).filter fun value => value != "").toList

/-- The records for fuzzy matching, read only when something is unresolved. -/
def fuzzyRecords (db : Db) (principal : String) (state : SelectionState) : List ContextRecord :=
  if state.unresolvedKeyRefs.isEmpty && state.unresolvedLookupValues.isEmpty then []
  else db.authorizedContextRecords principal

/-- The candidates for references whose key did not resolve. -/
def keyRefCandidates (records : List ContextRecord) (state : SelectionState) :
    List ContextCandidate :=
  state.unresolvedKeyRefs.flatMap fun entry => fuzzyContextCandidates records entry.1 entry.2

/-- The lookup phases: references, values, hints and the ranking of candidates. -/
def lookupSelection (db : Db) (principal : String) (envelope : ContextEnvelope)
    (query : Option String) : Except ToolError SelectionState := do
  let referenced ← envelope.refs.foldlM (resolveReference db principal) SelectionState.start
  let looked ← (lookupValues envelope query).foldlM (resolveLookupValue db principal) referenced
  let records := fuzzyRecords db principal looked
  let hinted ← looked.unresolvedLookupValues.foldlM (resolveHint records)
    { looked with candidates := looked.candidates ++ keyRefCandidates records looked }
  return { hinted with candidates := rankCandidates hinted.candidates }

/-! ## The empty selection -/

/-- The variables of the loop over policy defaults. -/
structure DefaultState where
  selection : SelectionState
  missingRequired : List String

/-- One round of the loop over policy defaults. -/
def selectDefault (db : Db) (principal : String) (state : DefaultState)
    (policy : EffectiveContextPolicy) : DefaultState :=
  if policy.allowed then
    match policy.defaultContextId with
    | none => missing state " has no default"
    | some defaultId =>
        match db.findContextRecords principal false (.id defaultId) with
        | [record] =>
            if record.context.kind = policy.kind ∧ defaultId ∉ state.selection.directIds then
              { state with selection := state.selection.select record }
            else missing state " has no authorized active default"
        | _ => missing state " has no authorized active default"
  else missing state " is denied"
where
  missing (state : DefaultState) (problem : String) : DefaultState :=
    if policy.required then
      { state with
        missingRequired := state.missingRequired ++
          ["required kind " ++ policy.kind.name ++ problem] }
    else state

/-- What remains of an empty selection. -/
inductive EmptyOutcome where
  | done (selection : ResolvedContextSelection)
  | proceed (state : SelectionState)

/-- A selection without contexts. -/
def contextlessSelection (resolution : ContextResolution) : ResolvedContextSelection :=
  ⟨resolution, [], [], none⟩

/-- The error of a selection that stays empty. -/
def noUniqueContext (candidates : List ContextCandidate) (policyGuidance : List String) :
    ToolError :=
  contextResolutionErrorWithGuidance
    (if candidates.isEmpty then .contextRequired else .contextAmbiguous) "context"
    "no unique authorized context could be selected" candidates policyGuidance

/-- The defaults of a governed write that names nothing. -/
def selectDefaults (db : Db) (principal : String) (policies : List EffectiveContextPolicy)
    (policyGuidance : List String) (state : SelectionState) :
    Except ToolError SelectionState := do
  let defaults := policies.foldl (selectDefault db principal) ⟨state, []⟩
  ensure defaults.missingRequired.isEmpty
    (contextResolutionErrorWithGuidance .contextRequired "context"
      ("; ".intercalate defaults.missingRequired) state.candidates policyGuidance)
  return defaults.selection

/-- The outcomes of a selection that is empty after the defaults. -/
def settleEmpty (envelope : ContextEnvelope) (query : Option String) (governedWrite : Bool)
    (policyGuidance : List String) (state : SelectionState) : Except ToolError EmptyOutcome :=
  if state.directIds.isEmpty then
    if query.isSome && !governedWrite then
      .ok (.done (contextlessSelection
        { ContextResolution.default with
          candidates := state.candidates
          policyGuidance := policyGuidance
          unresolved := true
          recommendedActions :=
            [⟨.contextResolve, .high, ("Select one exact authorized candidate, or create a " ++
              "distinct context when policy permits."), false⟩] }))
    else if governedWrite || !envelope.refs.isEmpty || !envelope.hints.isEmpty then
      .error (noUniqueContext state.candidates policyGuidance)
    else
      .ok (.done (contextlessSelection
        { ContextResolution.default with
          broadSearch := true
          policyGuidance := policyGuidance }))
  else .ok (.proceed state)

/-- The phase of an empty selection: deferral, defaults, or an error. -/
def resolveEmpty (db : Db) (principal : String) (policyState : ContextPolicyState)
    (envelope : ContextEnvelope) (query : Option String) (governedWrite : Bool)
    (state : SelectionState) : Except ToolError EmptyOutcome := do
  let policies := effectivePolicies policyState [] []
  let policyGuidance := policyGuidanceFor policies
  ensure (policies.all fun policy => policy.ambiguities.isEmpty)
    (contextResolutionErrorWithGuidance .contextAmbiguous "context"
      "effective context policy is ambiguous" state.candidates policyGuidance)
  if governedWrite && envelope.allowUnresolved && !policies.any (·.required) then
    return .done (contextlessSelection
      { ContextResolution.default with
        candidates := state.candidates
        policyGuidance := policyGuidance
        unresolved := true })
  else if governedWrite && envelope.refs.isEmpty && envelope.hints.isEmpty && query.isNone then
    let defaulted ← selectDefaults db principal policies policyGuidance state
    settleEmpty envelope query governedWrite policyGuidance defaulted
  else
    settleEmpty envelope query governedWrite policyGuidance state

/-! ## The policy phase -/

omit [IdentityHost] in
/-- The kinds of the directly selected contexts. -/
def SelectionState.directKinds (state : SelectionState) : List ContextKind :=
  (state.directIds.filterMap state.resolved.find?).map (·.context.kind)

/-- A kind next to which a policy does not allow another effective kind. -/
def disallowedCompanion (policy : EffectiveContextPolicy) (kinds : List ContextKind) :
    Option ContextKind :=
  policy.allowedCompanionKinds.bind fun companions =>
    kinds.find? fun kind => kind ≠ policy.kind ∧ kind ∉ companions

/-- The checks of the policy phase, in their order. -/
def checkPolicies (field : String) (policies : List EffectiveContextPolicy)
    (effectiveKinds directKinds : List ContextKind) (governedWrite : Bool)
    (candidates : List ContextCandidate) : Except ToolError Unit := do
  let policyGuidance := policyGuidanceFor policies
  let refusal := fun code message =>
    contextResolutionErrorWithGuidance code field message candidates policyGuidance
  refuse (policies.find? fun policy => !policy.ambiguities.isEmpty) fun policy =>
    refusal .contextAmbiguous ("effective policy for " ++ policy.kind.name ++
      " has conflicting active-anchor defaults")
  refuse (policies.find? fun policy => policy.kind ∈ effectiveKinds ∧ policy.allowed = false)
    fun policy => refusal .accessDenied
      ("effective policy denies context kind " ++ policy.kind.name)
  refuse (policies.find? fun policy =>
      governedWrite = true ∧ policy.required = true ∧ policy.kind ∉ directKinds)
    fun policy => refusal .contextRequired
      ("effective policy requires a " ++ policy.kind.name ++ " context")
  (policies.filter fun policy => policy.kind ∈ effectiveKinds).forM fun policy =>
    refuse (disallowedCompanion policy effectiveKinds) fun disallowed =>
      refusal .conflict ("effective " ++ policy.kind.name ++
        " policy does not allow companion kind " ++ disallowed.name)

/-- Whether the final selection includes descendants: the envelope asks for
them, or the policy of a directly selected kind does. -/
def includesDescendants (policyState : ContextPolicyState) (envelope : ContextEnvelope)
    (directKinds : List ContextKind) (initial : List ContextDefinition) : Bool :=
  envelope.includeDescendants ||
    (effectivePolicies policyState (policyRecords initial) (initial.map (·.id))).any fun policy =>
      decide (policy.kind ∈ directKinds) && policy.includeDescendants

/-- The expansion without descendants, widened where descendants are included. -/
def expandFinal (db : Db) (principal : String) (policyState : ContextPolicyState)
    (envelope : ContextEnvelope) (state : SelectionState) :
    Except ToolError (List ContextDefinition) := do
  let initial ← (db.expandContextSelection state.directIds principal false).mapError
    (contextExpansionError "context")
  if includesDescendants policyState envelope state.directKinds initial then
    (db.expandContextSelection state.directIds principal true).mapError
      (contextExpansionError "context")
  else
    return initial

/-- The policy phase of a non-empty selection. -/
def resolvePolicies (db : Db) (principal : String) (policyState : ContextPolicyState)
    (envelope : ContextEnvelope) (governedWrite : Bool) (state : SelectionState) :
    Except ToolError ResolvedContextSelection := do
  let effective ← expandFinal db principal policyState envelope state
  let policies := effectivePolicies policyState (policyRecords effective) (effective.map (·.id))
  checkPolicies "context" policies (effective.map (·.kind)) state.directKinds governedWrite
    state.candidates
  return {
    resolution :=
      { direct := (state.directIds.filterMap state.resolved.find?).map (·.context.descriptor)
        effective := effective.map (·.descriptor)
        candidates := state.candidates
        policyGuidance := policyGuidanceFor policies
        broadSearch := false
        unresolved := false
        recommendedActions := [] }
    directIds := state.directIds
    effectiveIds := effective.map (·.id)
    createdLegacyContext := none }

/-! ## The whole resolution -/

/-- The error of references that did not resolve. -/
def unresolvedReferences (candidates : List ContextCandidate) (policyGuidance : List String) :
    ToolError :=
  contextResolutionErrorWithGuidance
    (if candidates.isEmpty then .contextRequired else .contextAmbiguous) "context.refs"
    "one or more explicit context references did not resolve uniquely" candidates policyGuidance

/-- The limits on a request. -/
def validateResolutionRequest (envelope : ContextEnvelope) (query : Option String) :
    Except ToolError Unit := do
  envelope.validateLimits.mapError fun message =>
    toolError .invalidParams "context" message
      "Reduce context locators and hints to the documented limits." false
  ensure (query.all fun value => decide (value.utf8ByteSize ≤ maxContextSurfaceLen))
    (toolError .invalidParams "query"
      ("context query accepts at most " ++ toString maxContextSurfaceLen ++ " bytes")
      "Use a shorter context key, name, or hint." false)

/-- The phases after the lookups. -/
def finishSelection (db : Db) (principal : String) (policyState : ContextPolicyState)
    (envelope : ContextEnvelope) (query : Option String) (governedWrite : Bool)
    (state : SelectionState) : Except ToolError ResolvedContextSelection := do
  ensure (!state.unresolvedExplicitRef)
    (unresolvedReferences state.candidates
      (policyGuidanceFor (effectivePolicies policyState [] [])))
  if state.directIds.isEmpty then
    match ← resolveEmpty db principal policyState envelope query governedWrite state with
    | .done selection => return selection
    | .proceed next => resolvePolicies db principal policyState envelope governedWrite next
  else
    resolvePolicies db principal policyState envelope governedWrite state

/-- `resolve_context_selection`. -/
def Db.resolveContextSelection (db : Db) (principal : String)
    (requested : Option ContextEnvelope) (query : Option String) (governedWrite : Bool) :
    Except ToolError ResolvedContextSelection := do
  let envelope := requested.getD ContextEnvelope.default
  validateResolutionRequest envelope query
  let policyState := db.contextPolicyState principal
  if requested.isNone && query.isNone && !governedWrite then
    return contextlessSelection
      { ContextResolution.default with
        broadSearch := true
        policyGuidance := policyGuidanceFor (effectivePolicies policyState [] []) }
  else
    let state ← lookupSelection db principal envelope query
    finishSelection db principal policyState envelope query governedWrite state

end LocalHold
