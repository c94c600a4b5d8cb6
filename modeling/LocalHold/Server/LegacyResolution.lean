import LocalHold.Server.Resolution

/-!
# Legacy scopes as contexts

`resolve_legacy_context_selection` adapts a flat scope to a governed context: it
reuses a visible context with that key, or creates a private compatibility
context, or previews the creation.  A failed resolution rolls the created
context back.
-/

namespace LocalHold

open Relational Transition.Checked

/-- How a scope was resolved. -/
inductive ScopeResolvedBy where
  | explicit
  | contextAlias
  | matcher
  | unresolved
deriving DecidableEq, Repr

/-- A resolved legacy scope. -/
structure ScopeResolution where
  scope : String
  unresolvedScope : Bool
  resolvedBy : ScopeResolvedBy
  matchedHint : Option String
  matchedValue : Option String
deriving DecidableEq, Repr

/-- What a legacy resolution is for. -/
inductive LegacyContextResolutionMode where
  | read
  | write
  | previewWrite
deriving DecidableEq, Repr

namespace LegacyContextResolutionMode

/-- Whether the resolution serves a governed write. -/
def governedWrite : LegacyContextResolutionMode → Bool
  | read => false
  | write => true
  | previewWrite => true

/-- Whether a missing context is really created. -/
def persistsCreation : LegacyContextResolutionMode → Bool
  | read => false
  | write => true
  | previewWrite => false

end LegacyContextResolutionMode

/-- The policy rows stated for the custom kind. -/
def ContextPolicyState.explicitCustomPolicies (state : ContextPolicyState) :
    List ContextKindPolicyRecord :=
  state.kindPolicies.filter fun record => record.kind = ContextKind.custom

/-- The context implied by a scope without one. -/
def legacyContextDraft [Host] (id : ContextId) (principal scope : String) :
    ContextCreateDraft where
  id := id
  kind := ContextKind.custom
  key := scope
  normalizedKey := normalizeContextKey scope
  displayName := legacyScopeDisplayName scope
  description := some "Private compatibility context created from a legacy scope input."
  ownerPrincipal := principal
  guidance := some "Migrate callers from scope to the shared context envelope."
  parentId := none
  aliases := []
  identities := []
  resolverHints := []
  confirmDistinctFrom := []
  enforceFuzzyConfirmation := false
  frozen := false

/-- The audit row of an implied context. -/
def legacyContextAudit (id : ContextId) (principal scope : String) : ContextAuditDraft where
  actorPrincipal := principal
  action := "legacy_scope_context_created"
  contextId := some id
  memoryId := none
  details := some (.object [("scope_key", .string scope)])

/-- What a scope resolves to before anything is written. -/
inductive LegacyTarget where
  | existing (id : ContextId)
  | create (draft : ContextCreateDraft) (audit : ContextAuditDraft)
  | done (selection : ResolvedContextSelection)

variable [Host] [IdentityHost]

/-- The policy checks before a context is created implicitly. -/
def checkImplicitCreation (policyState : ContextPolicyState) : Except ToolError Unit := do
  let policy := effectivePolicyFor policyState [] ContextKind.custom []
  let explicitPolicies := policyState.explicitCustomPolicies
  let details : ToolErrorDetails := ⟨none, policyGuidanceFor [policy]⟩
  ensure (policy.allowed &&
      !explicitPolicies.any fun record => record.policy.agentCreation == some false)
    ⟨.accessDenied, some "scope",
      "effective policy denies implicit legacy custom-context creation",
      some ("Select an existing context or ask an operator to adjust the explicit " ++
        "custom-context creation policy."), false, some details, []⟩
  ensure (!explicitPolicies.any fun record => record.policy.requireIdentity == some true)
    ⟨.contextRequired, some "scope",
      "effective policy requires a durable identity and legacy scope cannot supply one",
      some ("Use context_create with a durable identity, then retry the write with a context " ++
        "reference."), false, some details, []⟩

/-- The result of a preview: the context that a write would create. -/
def previewSelection (draft : ContextCreateDraft) (policies : List EffectiveContextPolicy) :
    ResolvedContextSelection :=
  let direct : ContextDescriptor := ⟨draft.id, draft.kind, draft.key, draft.displayName⟩
  { resolution :=
      { ContextResolution.default with
        direct := [direct]
        effective := [direct]
        policyGuidance := policyGuidanceFor policies }
    directIds := [draft.id]
    effectiveIds := [draft.id]
    createdLegacyContext := none }

/-- The preview of an implicit creation.  The policies are those of the empty
selection, since no anchor override can name a context that does not exist. -/
def previewCreation (db : Db) (principal : String) (policyState : ContextPolicyState)
    (draft : ContextCreateDraft) : Except ToolError LegacyTarget := do
  ensure (db.findContextRecords principal true
      (.key (some ContextKind.custom) draft.normalizedKey)).isEmpty
    (toolError .conflict "scope"
      "legacy scope key or alias is reserved by an archived compatibility context"
      "Reactivate the archived context in the TUI before retrying the write." false)
  let policies := effectivePolicies policyState [] []
  checkPolicies "scope" policies [draft.kind] [draft.kind] true []
  return .done (previewSelection draft policies)

/-- The branch of a governed write whose scope has no context yet. -/
def legacyCreation (db : Db) (newId : ContextId) (principal scope : String)
    (mode : LegacyContextResolutionMode) : Except ToolError LegacyTarget := do
  (validateImplicitLegacyContextKey scope).mapError fun message =>
    toolError .invalidParams "scope" message
      ("Use a legacy scope key of at most 512 bytes whose final path segment is at most 256 " ++
        "bytes.") false
  let policyState := db.contextPolicyState principal
  checkImplicitCreation policyState
  let draft := legacyContextDraft newId principal scope
  if mode.persistsCreation then
    return .create draft (legacyContextAudit newId principal scope)
  else
    previewCreation db principal policyState draft

/-- The reading part of a legacy resolution. -/
def Db.legacyTarget (db : Db) (newId : ContextId) (principal : String)
    (resolution : ScopeResolution) (mode : LegacyContextResolutionMode) :
    Except ToolError LegacyTarget := do
  let normalized := normalizeContextKey resolution.scope
  ensure (!(normalized == normalizeContextKey unresolvedContextKey &&
      resolution.resolvedBy == .explicit))
    (contextResolutionError .contextRequired "scope"
      (if mode.governedWrite then
        "inbox/unresolved is a compatibility label, not a governed context; explicitly defer " ++
          "with context.allow_unresolved=true"
      else
        "inbox/unresolved is a compatibility label for contextless memories and cannot be used " ++
          "as a governed context filter") [])
  if resolution.unresolvedScope then
    ensure (!mode.governedWrite)
      (contextResolutionError .contextRequired "scope"
        ("legacy scope hints did not resolve; select a governed context or explicitly defer " ++
          "with context.allow_unresolved=true") [])
    let selection ← db.resolveContextSelection principal none none false
    return .done
      { selection with resolution := { selection.resolution with unresolved := true } }
  else
    match db.findContextRecords principal false (.key none normalized) with
    | [record] => return .existing record.context.id
    | [] =>
        if mode.governedWrite then
          legacyCreation db newId principal resolution.scope mode
        else
          .error (contextResolutionError .contextRequired "scope"
            "explicit legacy scope does not resolve to an active authorized context"
            (fuzzyContextCandidates (db.authorizedContextRecords principal) resolution.scope none))
    | records =>
        .error (contextResolutionError .contextAmbiguous "scope"
          "legacy scope matched multiple visible governed contexts"
          (ambiguousCandidates "legacy_scope" records))

/-- The resolution of the context that a scope stands for. -/
def Db.resolveById (db : Db) (principal : String) (id : ContextId) (governedWrite : Bool) :
    Except ToolError ResolvedContextSelection :=
  db.resolveContextSelection principal
    (some { ContextEnvelope.default with refs := [ContextReference.byId id] }) none governedWrite

/-- Create the context of a scope and resolve it.  A lost race reuses the
context that another caller created. -/
def Db.createAndResolve (db : Db) (principal : String) (draft : ContextCreateDraft)
    (audit : ContextAuditDraft) (governedWrite : Bool) (now : Instant) :
    Except ToolError ResolvedContextSelection × Db :=
  match createContext draft audit now db with
  | .ok (_, created) =>
      match created.resolveById principal draft.id governedWrite with
      | .ok selection => (.ok { selection with createdLegacyContext := some draft.id }, created)
      | .error error =>
          match rollbackUnreferencedLegacyContext draft.id principal created with
          | .ok (_, restored) => (.error error, restored)
          | .error cleanup =>
              (.error (toolError .internal "scope" cleanup.display
                ("Retry after checking backend health; the compatibility context may require " ++
                  "operator cleanup.") true), created)
  | .error error =>
      match db.findContextRecords principal false (.key none draft.normalizedKey) with
      | [record] => (db.resolveById principal record.context.id governedWrite, db)
      | _ =>
          (.error (toolError .conflict "scope" error.display
            ("Resolve the scope again; another caller may have created its compatibility " ++
              "context.") true), db)

/-- `resolve_legacy_context_selection`, with the identifier a creation draws. -/
def Db.resolveLegacyContextSelection (db : Db) (newId : ContextId) (principal : String)
    (resolution : ScopeResolution) (mode : LegacyContextResolutionMode) (now : Instant) :
    Except ToolError ResolvedContextSelection × Db :=
  match db.legacyTarget newId principal resolution mode with
  | .error error => (.error error, db)
  | .ok (.done selection) => (.ok selection, db)
  | .ok (.existing id) => (db.resolveById principal id mode.governedWrite, db)
  | .ok (.create draft audit) => db.createAndResolve principal draft audit mode.governedWrite now

/-! ## Governed writes -/

/-- How a write names its contexts. -/
inductive GovernedRequest where
  /-- A context envelope, or nothing at all. -/
  | context (envelope : Option ContextEnvelope)
  /-- A legacy scope, to be written or only previewed. -/
  | legacy (resolution : ScopeResolution) (preview : Bool)
deriving DecidableEq

/-- Whether the request lets the write stay without contexts. -/
def GovernedRequest.allowsUnresolved : GovernedRequest → Bool
  | context envelope => (envelope.getD ContextEnvelope.default).allowUnresolved
  | legacy _ _ => false

/-- The context resolution of a governed write. -/
def Db.resolveGovernedWrite (db : Db) (newId : ContextId) (principal : String)
    (request : GovernedRequest) (now : Instant) :
    Except ToolError ResolvedContextSelection × Db :=
  match request with
  | .context envelope => (db.resolveContextSelection principal envelope none true, db)
  | .legacy resolution preview =>
      db.resolveLegacyContextSelection newId principal resolution
        (if preview then .previewWrite else .write) now

end LocalHold
