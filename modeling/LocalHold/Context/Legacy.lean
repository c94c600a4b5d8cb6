import LocalHold.Context.Types

/-!
# Legacy scopes and protocol limits

The bounded adapter of `context.rs` between flat scope keys and governed
contexts: the limits on keys and names, the validation of scope definitions,
and the choice of a memory's effective legacy scope.
-/

namespace LocalHold

/-- `MAX_CONTEXT_REFS`. -/
def maxContextRefs : Nat := 32

/-- `MAX_CONTEXT_HINTS`. -/
def maxContextHints : Nat := 32

/-- `MAX_CONTEXT_SURFACE_LEN`. -/
def maxContextSurfaceLen : Nat := 512

/-- `MAX_CONTEXT_DISPLAY_NAME_LEN`. -/
def maxContextDisplayNameLen : Nat := 256

/-- `MAX_CONTEXT_DESCRIPTION_LEN`. -/
def maxContextDescriptionLen : Nat := 4096

/-- `MAX_CONTEXT_CONFIRMATIONS`. -/
def maxContextConfirmations : Nat := 5

/-- `MAX_EFFECTIVE_CONTEXTS`. -/
def maxEffectiveContexts : Nat := 512

/-- `is_reserved_principal`. -/
def isReservedPrincipal (principal : String) : Bool :=
  principal == operatorPrincipal || principal == legacySystemPrincipal ||
    principal == legacyAllPrincipalsGrant || principal == anonymousPrincipal

/-- `effective_legacy_scope_key`: metadata first, then provenance. -/
def effectiveLegacyScopeKey (metadataScope provenanceScope : Option String) : Option String :=
  ((metadataScope.map trim).filter fun value => value != "").or
    ((provenanceScope.map trim).filter fun value => value != "")

/-- The last non-empty `/`-separated segment of a text. -/
def lastSegment? (text : String) : Option String :=
  ((text.toList.splitOn '/').reverse.find? fun part => !part.isEmpty).map String.ofList

/-- `legacy_scope_display_name`. -/
def legacyScopeDisplayName (value : String) : String :=
  (lastSegment? (trim value)).getD (trim value)

/-- `ContextKind::from_legacy_scope`. -/
def ContextKind.fromLegacyScope [Host] (key : String) : ContextKind :=
  let segments := (normalizeContextKey key).toList.splitOn '/'
  let leading := if 1 < segments.length then String.ofList (segments.headD []) else ""
  if leading = "project" then ContextKind.project
  else if leading = "domain" then ContextKind.domain
  else if leading = "organization" ∨ leading = "org" then ContextKind.organization
  else ContextKind.custom

/-- A definition of the former scope registry. -/
structure ScopeDefinition where
  scopeKey : String
  displayName : String
  description : Option String
  aliases : List String
  matchers : List String
  parent : Option String
  related : List String
deriving DecidableEq, Repr

/-! ## Validation -/

/-- Fail with a message unless a condition holds. -/
def check (condition : Bool) (message : String) : Except String Unit :=
  if condition then .ok () else .error message

/-- `validate_legacy_scope_key`. -/
def validateLegacyScopeKey (value : String) : Except String Unit :=
  check (!isBlank value && decide (value.utf8ByteSize ≤ maxContextSurfaceLen))
    ("scope key must be non-empty and at most " ++ toString maxContextSurfaceLen ++ " bytes")

/-- `validate_implicit_legacy_context_key`. -/
def validateImplicitLegacyContextKey (value : String) : Except String Unit := do
  validateLegacyScopeKey value
  check (decide ((legacyScopeDisplayName value).utf8ByteSize ≤ maxContextDisplayNameLen))
    ("implicit compatibility context display name must be at most " ++
      toString maxContextDisplayNameLen ++ " bytes")

/-- `validate_legacy_scope_definition`. -/
def validateLegacyScopeDefinition (scope : ScopeDefinition) : Except String Unit := do
  validateLegacyScopeKey scope.scopeKey
  check (!isBlank scope.displayName &&
      decide (scope.displayName.utf8ByteSize ≤ maxContextDisplayNameLen))
    ("display_name must be non-empty and at most " ++ toString maxContextDisplayNameLen ++
      " bytes")
  check (scope.description.all fun value =>
      decide (value.utf8ByteSize ≤ maxContextDescriptionLen))
    ("description accepts at most " ++ toString maxContextDescriptionLen ++ " bytes")
  check (decide (scope.aliases.length ≤ maxContextRefs) &&
      decide (scope.related.length ≤ maxContextRefs) &&
      decide (scope.matchers.length ≤ maxContextHints))
    ("aliases and related accept at most " ++ toString maxContextRefs ++
      " entries; matchers accepts at most " ++ toString maxContextHints)
  check ((scope.aliases ++ scope.matchers).all fun value =>
      !isBlank value && decide (value.utf8ByteSize ≤ maxContextSurfaceLen))
    ("scope aliases and matchers must be non-empty and at most " ++
      toString maxContextSurfaceLen ++ " bytes")
  scope.related.forM validateImplicitLegacyContextKey
  match scope.parent with
  | some parent => validateImplicitLegacyContextKey parent
  | none => pure ()

/-- The identity schemes the program supports. -/
def isIdentityScheme (scheme : String) : Bool :=
  scheme == "git_remote" || scheme == "uri" || scheme == "namespaced_id"

/-- `validate_identity_schemes`. -/
def validateIdentitySchemes (schemes : List String) : Except String Unit := do
  let _ ← schemes.foldlM (fun seen scheme => do
    let normalized := asciiLowercase (trim scheme)
    check (isIdentityScheme normalized) "allowed_identity_schemes contains an unsupported scheme"
    check (!seen.contains normalized) "allowed_identity_schemes must be unique"
    return normalized :: seen) []

/-- `ContextKindPolicy::validate`. -/
def ContextKindPolicy.validate (policy : ContextKindPolicy) : Except String Unit := do
  validateIdentitySchemes (policy.allowedIdentitySchemes.getD [])
  check (decide (policy.allowedCompanionKinds.getD []).Nodup)
    "allowed_companion_kinds must be unique"
  check (policy.guidance.all fun guidance => !isBlank guidance)
    "policy guidance cannot be blank"

/-- `ContextAnchorPolicy::validate`. -/
def ContextAnchorPolicy.validate (policy : ContextAnchorPolicy) : Except String Unit :=
  policy.kinds.rows.forM fun entry => do
    match ContextKind.new? entry.1 with
    | none => .error "context kind must contain 1-64 lowercase ASCII letters, digits, '-' or '_'"
    | some normalized =>
        check (normalized.name == entry.1)
          "anchor policy kind keys must already be normalized"
        entry.2.validate

end LocalHold
