import LocalHold.Server.Resolution

/-!
# Creating contexts through the tool

`context_create` of `server/mod.rs`: the request is validated, answered by an exact
match where there is one, checked against the policies and the similar contexts, and
handed to the store, which checks the similar contexts again in its transaction.
The reads of one call see one stored state.
-/

namespace LocalHold

open Relational Transition.Checked

/-! ## Requests and responses -/

/-- `ContextCreateParams`. -/
structure ContextCreateParams where
  kind : ContextKind
  key : String
  displayName : String
  description : Option String
  identity : Option ContextIdentityInput
  parent : Option ContextReference
  confirmDistinctFrom : List ContextId
deriving DecidableEq

/-- `ContextIdentityDescriptor`. -/
structure ContextIdentityDescriptor where
  scheme : String
  redactedLabel : String
deriving DecidableEq

/-- The descriptor of a stored identity. -/
def ContextIdentity.descriptor (identity : ContextIdentity) : ContextIdentityDescriptor :=
  ⟨identity.scheme, identity.redactedLabel⟩

/-- `ContextCreateResponse`. -/
structure ContextCreateResponse where
  context : ContextDescriptor
  created : Bool
  identity : Option ContextIdentityDescriptor
  policyGuidance : List String
deriving DecidableEq

/-- The details of a refused creation, beside those of a context resolution. -/
inductive ContextCreateDetails where
  | none
  | archived (context : ContextDescriptor)
  | ambiguousPolicy (policyGuidance ambiguities : List String)
  | guidance (policyGuidance : List String)
  | identitySchemes (allowed policyGuidance : List String)
  | confirmation (candidates : List ContextCandidate) (policyGuidance : List String)
      (retry : List ContextId)
  | winners (candidates : List ContextDescriptor) (reason : String)
deriving DecidableEq

/-- Why a context is not created. -/
inductive ContextCreateError where
  | tool (error : ToolError) (details : ContextCreateDetails)
  | engine (error : StoreError)
deriving DecidableEq

/-- What the checks before the store come to. -/
inductive PreparedContext where
  | reused (response : ContextCreateResponse)
  | create (draft : ContextCreateDraft) (policyGuidance : List String)

namespace ContextCreateParams

/-- The key without surrounding white space. -/
def trimmedKey (params : ContextCreateParams) : String :=
  trim params.key

/-- The display name without surrounding white space. -/
def trimmedName (params : ContextCreateParams) : String :=
  trim params.displayName

/-- The limits of a request. -/
def validate (params : ContextCreateParams) : Except ContextCreateError Unit := do
  ensure (params.trimmedKey != "" && params.trimmedName != "" &&
      decide (params.trimmedKey.utf8ByteSize ≤ maxContextSurfaceLen) &&
      decide (params.trimmedName.utf8ByteSize ≤ maxContextDisplayNameLen) &&
      (params.description.all fun value =>
        decide (value.utf8ByteSize ≤ maxContextDescriptionLen)) &&
      decide (params.confirmDistinctFrom.length ≤ maxContextConfirmations))
    (.tool (toolError .invalidParams "context_create"
      "context creation fields are blank or exceed their documented limits"
      ("Use a bounded stable key, display name, description, and at most five " ++
        "confirmation IDs.") false) .none)
  ensure (decide params.confirmDistinctFrom.Nodup)
    (.tool (toolError .invalidParams "confirm_distinct_from" "confirmation IDs must be unique"
      "Submit each current candidate ID exactly once." false) .none)

end ContextCreateParams

variable [Host]

/-! ## Exact matches -/

/-- The records that hold the key, an alias or the identity, archived ones included. -/
def Db.exactContextMatches (db : Db) (principal : String) (kind : ContextKind)
    (normalizedKey : String) (identity : Option ContextIdentity) : List ContextRecord :=
  let exact := db.findContextRecords principal true (.key (some kind) normalizedKey)
  match identity with
  | none => exact
  | some identity =>
      (db.findContextRecords principal true (.identity kind identity)).foldl
        (fun exact record =>
          if exact.any fun candidate => candidate.context.id == record.context.id then exact
          else exact ++ [record]) exact

/-- The active records that hold the key, an alias or the identity. -/
def Db.lateExact (db : Db) (principal : String) (kind : ContextKind) (normalizedKey : String)
    (identity : Option ContextIdentity) : List ContextRecord :=
  (db.authorizedContextRecords principal).filter fun record =>
    record.context.kind == kind &&
      (normalizeContextKey record.context.key == normalizedKey ||
        (record.aliases.any fun value => normalizeContextKey value == normalizedKey) ||
        identity.any fun identity => identity ∈ record.identities)

/-- The answer when a record matches exactly. -/
def reuseContext (policyState : ContextPolicyState) (record : ContextRecord) :
    ContextCreateResponse where
  context := record.context.descriptor
  created := false
  identity := none
  policyGuidance := policyGuidanceFor [effectivePolicyFor policyState [] record.context.kind []]

/-- The refusal of a key or identity that several records hold. -/
def ambiguousExact (records : List ContextRecord) : ContextCreateError :=
  .tool (contextResolutionError .contextAmbiguous "key"
    "exact context key, alias, or identity matched multiple authorized contexts"
    (ambiguousCandidates "exact_key_or_identity" records)) .none

/-- The refusal of a key or identity that an archived context holds. -/
def archivedExact (record : ContextRecord) : ContextCreateError :=
  .tool (toolError .conflict "key"
    "exact context key, alias, or identity belongs to an archived context"
    ("Reactivate the reserved context in the TUI; agent tools cannot replace archived " ++
      "identities.") false) (.archived record.context.descriptor)

/-! ## Policies -/

/-- The policy checks of a creation. -/
def checkCreationPolicy (policy : EffectiveContextPolicy) (policyGuidance : List String)
    (identity : Option ContextIdentity) : Except ContextCreateError Unit := do
  ensure policy.ambiguities.isEmpty
    (.tool (toolError .contextAmbiguous "kind" "effective context creation policy is ambiguous"
      "Resolve the active anchor-policy conflict in the TUI before retrying." false)
      (.ambiguousPolicy policyGuidance policy.ambiguities))
  ensure (policy.allowed && policy.agentCreation)
    (.tool (toolError .accessDenied "kind"
      "effective policy does not allow agent creation for this context kind"
      "Use the TUI to enable agent creation within operator ceilings." false)
      (.guidance policyGuidance))
  ensure (!(policy.requireIdentity && identity.isNone))
    (.tool (toolError .contextRequired "identity"
      "effective policy requires a durable typed identity for this context kind"
      "Supply git_remote, an approved absolute uri, or a namespaced_id." false)
      (.guidance policyGuidance))
  ensure (identity.all fun identity => decide (identity.scheme ∈ policy.allowedIdentitySchemes))
    (.tool (toolError .accessDenied "identity.scheme"
      "effective policy does not allow this identity scheme for the context kind"
      "Use one of the identity schemes listed by effective policy." false)
      (.identitySchemes policy.allowedIdentitySchemes policyGuidance))

/-! ## Similar contexts -/

/-- `sort_unstable` and `dedup`. -/
def confirmedIds (ids : List ContextId) : List ContextId :=
  (ids.dedup).mergeSort fun first second => decide (first ≤ second)

/-- The candidates for a key and a display name. -/
def Db.similarContexts (db : Db) (principal : String) (kind : ContextKind)
    (key displayName : String) : List ContextCandidate :=
  fuzzyContextCandidates (db.authorizedContextRecords principal) (key ++ " " ++ displayName)
    (some kind)

/-- The ids that have to be confirmed. -/
def Db.demandedConfirmations (db : Db) (principal : String) (kind : ContextKind)
    (key displayName : String) : List ContextId :=
  ((db.similarContexts principal kind key displayName).map (·.context.id)).mergeSort
    fun first second => decide (first ≤ second)

/-- The check of the confirmations before the store is asked. -/
def Db.confirmsCandidates (db : Db) (principal : String) (params : ContextCreateParams) : Bool :=
  let candidateIds := db.demandedConfirmations principal params.kind params.trimmedKey
    params.trimmedName
  candidateIds.isEmpty || candidateIds == confirmedIds params.confirmDistinctFrom

/-- The refusal of a request that does not confirm its candidates. -/
def unconfirmed (db : Db) (principal : String) (params : ContextCreateParams)
    (policyGuidance : List String) : ContextCreateError :=
  .tool (toolError .contextAmbiguous "confirm_distinct_from"
    "similar authorized contexts require explicit distinctness confirmation"
    ("Review the candidates and repeat context_create with every current candidate ID in " ++
      "confirm_distinct_from.") false)
    (.confirmation
      (db.similarContexts principal params.kind params.trimmedKey params.trimmedName)
      policyGuidance
      (db.demandedConfirmations principal params.kind params.trimmedKey params.trimmedName))

/-! ## The draft -/

/-- `trim_optional_text`. -/
def trimOptionalText (value : Option String) : Option String :=
  (value.map trim).filter fun text => text != ""

/-- The draft of a request. -/
def ContextCreateParams.draft (params : ContextCreateParams) (id : ContextId) (principal : String)
    (parentId : Option ContextId) (identity : Option ContextIdentity) : ContextCreateDraft where
  id := id
  kind := params.kind
  key := params.trimmedKey
  normalizedKey := normalizeContextKey params.trimmedKey
  displayName := params.trimmedName
  description := trimOptionalText params.description
  ownerPrincipal := principal
  guidance := none
  parentId := parentId
  aliases := []
  identities := identity.toList
  resolverHints := []
  confirmDistinctFrom := params.confirmDistinctFrom
  enforceFuzzyConfirmation := true
  frozen := false

/-- The audit row of a creation. -/
def ContextCreateDraft.creationAudit (draft : ContextCreateDraft) : ContextAuditDraft where
  actorPrincipal := draft.ownerPrincipal
  action := "context_created"
  contextId := some draft.id
  memoryId := none
  details := some (.object [("kind", .string draft.kind.name), ("key", .string draft.key),
    ("identity_scheme", (draft.identities.head?.map fun identity =>
      Json.string identity.scheme).getD .null)])

/-! ## The tool -/

variable [IdentityHost]

/-- The parent of a request. -/
def Db.creationParent (db : Db) (principal : String) (params : ContextCreateParams) :
    Except ContextCreateError (Option ContextId) :=
  match params.parent with
  | none => .ok none
  | some parent => do
      let selection ← (db.resolveContextSelection principal
        (some { ContextEnvelope.default with refs := [parent] }) none false).mapError
          (.tool · .none)
      return selection.directIds.head?

/-- The policy of a creation below its parent. -/
def Db.creationPolicy (db : Db) (principal : String) (params : ContextCreateParams)
    (parentId : Option ContextId) : Except ContextCreateError EffectiveContextPolicy := do
  let effective ← match parentId with
    | none => .ok []
    | some parentId => (db.expandContextSelection [parentId] principal false).mapError fun error =>
        ContextCreateError.tool (contextExpansionError "parent" error) .none
  return effectivePolicyFor (db.contextPolicyState principal) (policyRecords effective) params.kind
    (effective.map (·.id))

/-- The checks from the parent to the similar contexts. -/
def Db.prepareDraft (db : Db) (newId : ContextId) (principal : String)
    (params : ContextCreateParams) (identity : Option ContextIdentity) :
    Except ContextCreateError PreparedContext := do
  let parentId ← db.creationParent principal params
  let policy ← db.creationPolicy principal params parentId
  let policyGuidance := policyGuidanceFor [policy]
  checkCreationPolicy policy policyGuidance identity
  match db.lateExact principal params.kind (normalizeContextKey params.trimmedKey) identity with
  | [record] => return .reused (reuseContext (db.contextPolicyState principal) record)
  | [] => do
      ensure (db.confirmsCandidates principal params)
        (unconfirmed db principal params policyGuidance)
      return .create (params.draft newId principal parentId identity) policyGuidance
  | records => .error (ambiguousExact records)

/-- `context_create` up to the store. -/
def Db.prepareContext (db : Db) (newId : ContextId) (principal : String)
    (params : ContextCreateParams) : Except ContextCreateError PreparedContext := do
  params.validate
  let identity ← (params.identity.mapM normalizeContextIdentity).mapError fun message =>
    ContextCreateError.tool (toolError .invalidParams "identity" message
      ("Use git_remote, an approved absolute uri, or a namespaced_id; put local paths in " ++
        "resolver hints.") false) .none
  match db.exactContextMatches principal params.kind (normalizeContextKey params.trimmedKey)
      identity with
  | [record] =>
      if record.context.lifecycle = .archived then .error (archivedExact record)
      else return .reused (reuseContext (db.contextPolicyState principal) record)
  | [] => db.prepareDraft newId principal params identity
  | records => .error (ambiguousExact records)

omit [IdentityHost] in
/-- The answer to a conflict that the store reports. -/
def Db.creationConflict (db : Db) (draft : ContextCreateDraft) (policyGuidance : List String)
    (message : String) : Except ContextCreateError ContextCreateResponse :=
  if message.startsWith "fuzzy context candidates changed" then
    .error (.tool (toolError .contextAmbiguous "confirm_distinct_from" message
      "Resolve the current candidates and retry with a fresh confirmation set." true)
      (.confirmation
        (db.similarContexts draft.ownerPrincipal draft.kind draft.key draft.displayName)
        policyGuidance
        (db.demandedConfirmations draft.ownerPrincipal draft.kind draft.key draft.displayName)))
  else
    let winners := db.exactContextMatches draft.ownerPrincipal draft.kind draft.normalizedKey
      draft.identities.head?
    match winners with
    | [winner] =>
        if winner.context.lifecycle = .active then
          .ok ⟨winner.context.descriptor, false, none, policyGuidance⟩
        else .error (lost winners)
    | _ => .error (lost winners)
where
  lost (winners : List ContextRecord) : ContextCreateError :=
    .tool (toolError .conflict "key"
      "context creation conflicted with a concurrent exact definition"
      "Resolve the exact key, alias, or identity and retry using the returned context." true)
      (.winners (winners.map (·.context.descriptor)) message)

/-- `context_create` for a principal that may write. -/
def Db.contextCreate (db : Db) (newId : ContextId) (principal : String)
    (params : ContextCreateParams) (now : Instant) :
    Except ContextCreateError ContextCreateResponse × Db :=
  match db.prepareContext newId principal params with
  | .error error => (.error error, db)
  | .ok (.reused response) => (.ok response, db)
  | .ok (.create draft policyGuidance) =>
      match createContext draft draft.creationAudit now db with
      | .ok (created, next) =>
          (.ok ⟨created.descriptor, true, draft.identities.head?.map (·.descriptor),
            policyGuidance⟩, next)
      | .error (.conflict message) =>
          (db.creationConflict draft policyGuidance message, db)
      | .error error => (.error (.engine error), db)

end LocalHold
