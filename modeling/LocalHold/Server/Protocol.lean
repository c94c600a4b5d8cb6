import LocalHold.Store.ContextQuery

/-!
# The context protocol of the tools

The request and response types of context resolution and its structured tool
errors.  Canonical Git remotes and URIs rest on a URL parser and fingerprints on
SHA-256; they are the operations of `IdentityHost`.
-/

namespace LocalHold

open Transition.Checked

/-! ## Tool errors -/

/-- Stable machine-readable error code. -/
inductive ToolErrorCode where
  | invalidParams
  | notFound
  | accessDenied
  | anonymousReadDenied
  | anonymousWriteDenied
  | unavailable
  | conflict
  | contextRequired
  | contextAmbiguous
  | internal
deriving DecidableEq, Repr

/-- Safe context descriptor of resolution results. -/
structure ContextDescriptor where
  id : ContextId
  kind : ContextKind
  key : String
  displayName : String
deriving DecidableEq

/-- The descriptor of a definition. -/
def ContextDefinition.descriptor (context : ContextDefinition) : ContextDescriptor :=
  ⟨context.id, context.kind, context.key, context.displayName⟩

/-- A context offered for selection. -/
structure ContextCandidate where
  context : ContextDescriptor
  score : ℚ
  matchedBy : List String
deriving DecidableEq

/-- Tools named by recommended actions. -/
inductive RecommendedActionTool where
  | read
  | readMany
  | recall
  | remember
  | contextResolve
  | contextCreate
  | adminScopeRegister
deriving DecidableEq, Repr

/-- Priority of a recommended action. -/
inductive RecommendedActionPriority where
  | high
  | normal
  | low
deriving DecidableEq, Repr

/-- A deterministic next action; whether it carries complete arguments. -/
structure RecommendedAction where
  tool : RecommendedActionTool
  priority : RecommendedActionPriority
  reason : String
  hasArguments : Bool
deriving DecidableEq, Repr

/-- Structured diagnostics.  Candidates come with the retry template. -/
structure ToolErrorDetails where
  candidates : Option (List ContextCandidate)
  policyGuidance : List String
deriving DecidableEq

/-- Structured application-level tool error. -/
structure ToolError where
  code : ToolErrorCode
  field : Option String
  message : String
  suggestedFix : Option String
  retryable : Bool
  details : Option ToolErrorDetails
  recommendedActions : List RecommendedAction
deriving DecidableEq

/-- `tool_error`. -/
def toolError (code : ToolErrorCode) (field message suggestedFix : String) (retryable : Bool) :
    ToolError :=
  ⟨code, some field, message, some suggestedFix, retryable, none, []⟩

/-- `context_policy_guidance`. -/
def contextPolicyGuidance : List String :=
  ["Contexts are relevance metadata and never grant memory access.",
    "Agent creation is enabled by default only for project contexts with a durable typed identity.",
    "Domain, organization, custom, and operator-defined context creation requires TUI policy opt-in."]

/-- `context_resolution_error_with_guidance`. -/
def contextResolutionErrorWithGuidance (code : ToolErrorCode) (field message : String)
    (candidates : List ContextCandidate) (policyGuidance : List String) : ToolError where
  code := code
  field := some field
  message := message
  suggestedFix :=
    some "Call context_resolve, then retry with an exact context ID, key, or typed identity."
  retryable := false
  details := some ⟨some candidates, policyGuidance⟩
  recommendedActions :=
    [⟨.contextResolve, .high,
      "Resolve an authorized governed context before retrying the operation.", true⟩]

/-- `context_resolution_error`. -/
def contextResolutionError (code : ToolErrorCode) (field message : String)
    (candidates : List ContextCandidate) : ToolError :=
  contextResolutionErrorWithGuidance code field message candidates contextPolicyGuidance

/-- `context_expansion_error`. -/
def contextExpansionError (field : String) (error : StoreError) : ToolError :=
  match error with
  | .notFound message => unavailable message
  | .conflict message => unavailable message
  | .database _ => backend
  | .serialization _ => backend
  | .migrationFailed _ => backend
where
  unavailable (message : String) : ToolError :=
    toolError .conflict field message
      ("Resolve fewer active contexts, disable descendant expansion, or retry without " ++
        "unavailable or cyclic hierarchy members.") false
  backend : ToolError :=
    toolError .internal field "context hierarchy expansion failed in the persistence backend"
      "Retry after checking backend health." true

/-! ## Locators -/

/-- Typed durable identity supplied by an agent. -/
structure ContextIdentityInput where
  scheme : String
  value : String
  identityNamespace : Option String
deriving DecidableEq

/-- One context locator in a shared context envelope. -/
structure ContextReference where
  id : Option ContextId
  kind : Option ContextKind
  key : Option String
  identity : Option ContextIdentityInput
deriving DecidableEq

/-- A reference by identifier. -/
def ContextReference.byId (id : ContextId) : ContextReference :=
  ⟨some id, none, none, none⟩

/-- Context-selection envelope shared by context-aware tools. -/
structure ContextEnvelope where
  refs : List ContextReference
  hints : List String
  includeDescendants : Bool
  allowUnresolved : Bool
deriving DecidableEq

/-- `ContextEnvelope::default()`. -/
def ContextEnvelope.default : ContextEnvelope :=
  ⟨[], [], false, false⟩

/-- `MAX_CONTEXT_IDENTITY_VALUE_LEN`. -/
def maxContextIdentityValueLen : Nat := 4096

/-- `validate_identity_input_limits`. -/
def validateIdentityInputLimits (input : ContextIdentityInput) : Except String Unit := do
  check (decide (input.scheme.utf8ByteSize ≤ 32)) "context identity scheme is too long"
  check (decide (input.value.utf8ByteSize ≤ maxContextIdentityValueLen))
    ("context identity value accepts at most " ++ toString maxContextIdentityValueLen ++ " bytes")
  check (input.identityNamespace.all fun value => decide (value.utf8ByteSize ≤ 128))
    "context identity namespace accepts at most 128 bytes"

/-- `ContextReference::validate`: exactly one locator form. -/
def ContextReference.validate (reference : ContextReference) : Except String Unit :=
  match reference.id, reference.kind, reference.key, reference.identity with
  | some _, none, none, none => .ok ()
  | none, some _, none, some identity => validateIdentityInputLimits identity
  | none, some _, some key, none =>
      check (!isBlank key && decide (key.utf8ByteSize ≤ maxContextSurfaceLen)) malformed
  | _, _, _, _ => .error malformed
where
  malformed : String :=
    "a context ref must contain exactly one locator: id, kind+key, or kind+identity"

/-- `ContextEnvelope::validate_limits`. -/
def ContextEnvelope.validateLimits (envelope : ContextEnvelope) : Except String Unit := do
  check (decide (envelope.refs.length ≤ maxContextRefs))
    ("context.refs accepts at most " ++ toString maxContextRefs ++ " entries")
  check (decide (envelope.hints.length ≤ maxContextHints))
    ("context.hints accepts at most " ++ toString maxContextHints ++ " entries")
  envelope.refs.forM ContextReference.validate
  check (envelope.hints.all fun hint => decide (hint.utf8ByteSize ≤ maxContextSurfaceLen))
    ("each context hint accepts at most " ++ toString maxContextSurfaceLen ++ " bytes")

/-- Identity operations that rest on other libraries. -/
class IdentityHost where
  /-- `normalize_git_remote`: canonical form and label prefix. -/
  normalizeGitRemote : String → Except String (String × String)
  /-- `normalize_uri`: canonical form and label prefix. -/
  normalizeUri : String → Except String (String × String)
  /-- The lowercase hexadecimal SHA-256 digest. -/
  sha256Hex : String → String

/-- `valid_namespace`. -/
def validNamespace (value : String) : Bool :=
  decide (value.utf8ByteSize ≤ 128) &&
    value.toList.all fun c => c.isAlphanum || c == '.' || c == '_' || c == '-' || c == '/' ||
      c == ':'

/-- The canonical form, label prefix and stored namespace of an identity. -/
def canonicalIdentity [IdentityHost] (scheme : String) (identityNamespace : Option String)
    (value : String) : Except String (String × String × Option String) :=
  if scheme = "git_remote" then do
    check identityNamespace.isNone "git_remote does not accept namespace"
    let canonical ← IdentityHost.normalizeGitRemote value
    return (canonical.1, canonical.2, none)
  else if scheme = "uri" then do
    check identityNamespace.isNone "uri does not accept namespace"
    let canonical ← IdentityHost.normalizeUri value
    return (canonical.1, canonical.2, none)
  else if scheme = "namespaced_id" then
    match identityNamespace with
    | none => .error "namespaced_id requires namespace"
    | some stated => do
        check (validNamespace stated && !isBlank value)
          "namespaced_id requires a valid namespace and non-empty opaque value"
        return (stated ++ "\u0000" ++ trim value, stated ++ ":…", some stated)
  else
    .error "unsupported context identity scheme"

/-- `normalize_context_identity`. -/
def normalizeContextIdentity [IdentityHost] (input : ContextIdentityInput) :
    Except String ContextIdentity := do
  validateIdentityInputLimits input
  let scheme := asciiLowercase (trim input.scheme)
  let stated := (input.identityNamespace.map trim).filter fun value => value != ""
  let canonical ← canonicalIdentity scheme stated input.value
  let fingerprint := IdentityHost.sha256Hex (scheme ++ "\u0000" ++ canonical.1)
  return {
    scheme := scheme
    identityNamespace := canonical.2.2
    fingerprint := fingerprint
    redactedLabel := canonical.2.1 ++ String.ofList (fingerprint.toList.take 8) }

variable [Host] [IdentityHost]

/-- `exact_context_lookup`. -/
def exactContextLookup (reference : ContextReference) : Except ToolError ContextExactLookup := do
  reference.validate.mapError fun message =>
    toolError .invalidParams "context.refs" message
      "Use exactly one of id, kind+key, or kind+identity in each context ref." false
  match reference.id, reference.kind, reference.key, reference.identity with
  | some id, _, _, _ => return .id id
  | none, none, _, _ =>
      .error (toolError .invalidParams "context.refs"
        "context kind is required for key and identity locators"
        "Use exactly one of id, kind+key, or kind+identity." false)
  | none, some kind, some key, _ => return .key (some kind) (normalizeContextKey key)
  | none, some _, none, none =>
      .error (toolError .invalidParams "context.refs.identity"
        "context identity is required for an identity locator"
        "Use exactly one of id, kind+key, or kind+identity." false)
  | none, some kind, none, some input => do
      let identity ← (normalizeContextIdentity input).mapError fun message =>
        toolError .invalidParams "context.refs.identity" message
          "Supply a policy-approved durable identity; local paths belong in context.hints." false
      return .identity kind identity

/-! ## Results -/

/-- The outcome of context resolution. -/
structure ContextResolution where
  direct : List ContextDescriptor
  effective : List ContextDescriptor
  candidates : List ContextCandidate
  policyGuidance : List String
  broadSearch : Bool
  unresolved : Bool
  recommendedActions : List RecommendedAction
deriving DecidableEq

/-- `ContextResolution::default()`. -/
def ContextResolution.default : ContextResolution :=
  ⟨[], [], [], [], false, false, []⟩

/-- A resolved selection. -/
structure ResolvedContextSelection where
  resolution : ContextResolution
  directIds : List ContextId
  effectiveIds : List ContextId
  createdLegacyContext : Option ContextId
deriving DecidableEq

/-! ## Candidates -/

/-- The best similarity of a record's surfaces and the surfaces that reach it. -/
def recordSimilarity (record : ContextRecord) (query : String) : ℚ × List String :=
  let surfaces := ("key", record.context.key) :: ("display_name", record.context.displayName) ::
    record.aliases.map fun value => ("alias", value)
  surfaces.foldl (fun best surface =>
    let score := max (normalizedSetOverlap (contextTokens query) (contextTokens surface.2))
      (normalizedSetOverlap (contextTrigrams query) (contextTrigrams surface.2))
    if best.1 < score then (score, [surface.1])
    else if score = best.1 ∧ 0 < score then (best.1, best.2 ++ [surface.1])
    else best) (0, [])

/-- `fuzzy_context_candidates`. -/
def fuzzyContextCandidates (records : List ContextRecord) (query : String)
    (kind : Option ContextKind) : List ContextCandidate :=
  let ofKind := records.filter fun record => kind.all fun expected => record.context.kind == expected
  let scored := ofKind.filterMap fun record =>
    let similarity := recordSimilarity record query
    if 18 / 25 ≤ similarity.1 then
      some ⟨record.context.descriptor, similarity.1, similarity.2⟩
    else none
  (Relational.orderBy (fun first second =>
    decide (second.score < first.score) ||
      (first.score == second.score &&
        (decide (first.context.key < second.context.key) ||
          (first.context.key == second.context.key &&
            decide (first.context.id ≤ second.context.id))))) scored).take 5

/-- Best candidates first, one per context, at most five. -/
def rankCandidates (candidates : List ContextCandidate) : List ContextCandidate :=
  ((Relational.orderBy (fun first second =>
    decide (second.score < first.score) ||
      (first.score == second.score && decide (first.context.id ≤ second.context.id)))
    candidates).destutter fun first second => first.context.id ≠ second.context.id).take
      maxContextConfirmations

/-- The candidates of an ambiguous exact match. -/
def ambiguousCandidates (matchedBy : String) (records : List ContextRecord) :
    List ContextCandidate :=
  records.map fun record => ⟨record.context.descriptor, 1, [matchedBy]⟩

end LocalHold
