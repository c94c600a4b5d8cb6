import LocalHold.Store.Crud

/-!
# Revising and deleting memories

The update and delete paths of `crud.rs`.  All of them go through
`applyUpdateInner`, which advances the record revision with every column or
entity change and the embedding revision with every content change.
-/

namespace LocalHold

open Relational Transition Transition.Txn

variable [Host]

/-- Outcome of an authorized update, with the revision to embed after a
content change. -/
structure AuthorizedUpdateOutcome where
  outcome : WriteOutcome
  reembedRevision : Option Int
deriving DecidableEq, Repr

/-- An update that found no row or no permission. -/
def AuthorizedUpdateOutcome.refused (outcome : WriteOutcome) : AuthorizedUpdateOutcome :=
  ⟨outcome, none⟩

omit [Host] in
/-- `next_memory_revision`: strictly after the previous content time. -/
def nextMemoryRevision (now previous : Instant) : Instant :=
  max now (previous + 1000)

omit [Host] in
/-- `compatibility_scope_key`. -/
def Db.compatibilityScopeKey (db : Db) (id : MemoryId) : String :=
  let primary := db.memoryContexts.rows.find? fun row => row.memoryId = id ∧ row.ordinal = 0
  ((primary.bind fun row => db.contexts.find? row.contextId).map (·.context.key)).getD
    unresolvedContextKey

omit [Host] in
/-- `validate_compatibility_cache_update`. -/
def validateCompatibilityCacheUpdate (id : MemoryId) (update : MemoryUpdate)
    (patch : Option MetadataPatch) : StoreM Unit := do
  let patchScope := patch.bind (·.scopeKey)
  if update.sourceConversation.isNone && patchScope.isNone then
    pure ()
  else
    let expectedScope ← reads fun db => db.compatibilityScopeKey id
    require (update.sourceConversation.all fun scope => scope == expectedScope)
      (.conflict ("provenance compatibility scope must match the primary governed context; " ++
        "replace governed memberships instead"))
    require (patchScope.all fun scope => scope == expectedScope)
      (.conflict ("metadata compatibility scope must match the primary governed context; " ++
        "replace governed memberships instead"))

/-- `build_set_clause`: the column assignments of an update. -/
def MemoryUpdate.setClause (update : MemoryUpdate) (now : Instant) (row : MemoryRow) :
    MemoryRow :=
  { row with
    content := update.content.getD row.content
    hasEmbedding := if update.content.isSome then 0 else row.hasEmbedding
    embeddingRevision :=
      if update.content.isSome then row.embeddingRevision + 1 else row.embeddingRevision
    embeddingClaimedAt := if update.content.isSome then none else row.embeddingClaimedAt
    embeddingClaimToken := if update.content.isSome then none else row.embeddingClaimToken
    tags := update.tags.getD row.tags
    accessPolicy := update.accessPolicy.getD row.accessPolicy
    importance := update.importance.getD row.importance
    expiresAt := update.expiresAt.getD row.expiresAt
    confidence := update.confidence.getD row.confidence
    provenance :=
      match update.sourceConversation with
      | some scope => row.provenance.withConversation scope
      | none => row.provenance
    updatedAt := if update.content.isSome then now else row.updatedAt
    recordRevision :=
      if update.hasColumnUpdates then row.recordRevision + 1 else row.recordRevision }

omit [Host] in
/-- The row statement of an update; whether the memory exists. -/
def applyUpdateColumns (id : MemoryId) (update : MemoryUpdate) (now : Instant) :
    StoreM Bool :=
  if update.hasColumnUpdates then
    updateMemory id (update.setClause now)
  else if update.entities.isSome then
    updateMemory id fun row => { row with recordRevision := row.recordRevision + 1 }
  else
    memoryExists id

omit [Host] in
/-- `SELECT embedding_revision FROM memories WHERE id = ?`. -/
def embeddingRevision (id : MemoryId) : StoreM Int := do
  let row ← reads fun db => db.memories.find? id
  let found ← expect row (.database "Query returned no rows")
  return found.embeddingRevision

omit [Host] in
/-- Remove a stale vector after a content change; the revision to embed. -/
def dropStaleEmbedding (id : MemoryId) (update : MemoryUpdate) : StoreM (Option Int) :=
  if update.content.isSome then do
    vectorDelete id
    let revision ← embeddingRevision id
    return some revision
  else
    pure none

omit [Host] in
/-- `apply_update_inner`. -/
def applyUpdateInner (id : MemoryId) (update : MemoryUpdate) (now : Instant) :
    StoreM AuthorizedUpdateOutcome := do
  let affected ← applyUpdateColumns id update now
  if affected then
    let reembedRevision ← dropStaleEmbedding id update
    onSome update.entities (replaceEntities id)
    return ⟨.applied, reembedRevision⟩
  else
    return .refused .notFound

omit [Host] in
/-- `apply_update`. -/
def applyUpdate (id : MemoryId) (update : MemoryUpdate) (now : Instant) :
    StoreM AuthorizedUpdateOutcome := do
  if !update.hasColumnUpdates && update.entities.isNone then
    let present ← memoryExists id
    return ⟨if present then .applied else .notFound, none⟩
  else
    match ← fetchMemoryById id with
    | none => return .refused .notFound
    | some existing =>
        validateCompatibilityCacheUpdate id update none
        applyUpdateInner id update (nextMemoryRevision now existing.updatedAt)

/-! ## Audit details -/

/-- The byte step of the FNV-1a fingerprint. -/
def fnv1aHash (bytes : List UInt8) : UInt64 :=
  bytes.foldl (fun hash byte => (hash ^^^ byte.toUInt64) * 0x100000001b3) 0xcbf29ce484222325

/-- `content_hash`: sixteen hexadecimal digits. -/
def contentHash (content : String) : String :=
  let hash := (fnv1aHash content.toUTF8.toList).toNat
  String.ofList ((List.range 16).map fun position =>
    Nat.digitChar (hash / 16 ^ (15 - position) % 16))

/-- `audit_details_with_old_content_hash`. -/
def auditDetailsWithOldContentHash (details : Option Json) (hash : String) : Json :=
  match details with
  | some (.object fields) =>
      .object (fields.filter (fun field => field.1 != "old_content_hash") ++
        [("old_content_hash", .string hash)])
  | some value => .object [("old_content_hash", .string hash), ("details", value)]
  | none => .object [("old_content_hash", .string hash)]

/-- `update_audit_draft_for_locked_memory`. -/
def updateAuditDraftForLockedMemory (audit : AuditDraft) (update : MemoryUpdate)
    (existing : Memory) : AuditDraft :=
  if update.content.isNone then audit
  else
    { audit with
      details := some (auditDetailsWithOldContentHash audit.details
        (contentHash existing.content)) }

/-! ## Authorized updates -/

/-- `merge_metadata_patch`. -/
def mergeMetadataPatch (id : MemoryId) (patch : MetadataPatch)
    (existing : Option MemoryMetadata) (fallbackScope : Option String) (principal : String) :
    MemoryMetadata :=
  let scopeKey := (patch.scopeKey.or (existing.bind (·.scopeKey))).or fallbackScope
  let retained := ((existing.map (·.qualityFlags)).getD []).filter (· != "missing_scope")
  let unresolved := scopeKey.all fun key => normalizeContextKey key == unresolvedContextKey
  { memoryId := id
    scopeKey := scopeKey
    summary := if patch.clearSummary then none else patch.summary.or (existing.bind (·.summary))
    agentLabel :=
      if patch.clearAgentLabel then none else patch.agentLabel.or (existing.bind (·.agentLabel))
    createdByPrincipal := (existing.bind (·.createdByPrincipal)).or (some principal)
    qualityFlags := if unresolved then retained ++ ["missing_scope"] else retained
    schemaVersion := 1 }

/-- Merge a metadata patch into the stored row. -/
def applyMetadataPatch (id : MemoryId) (patch : MetadataPatch) (fallbackScope : Option String)
    (principal : String) (now : Instant) : StoreM Unit := do
  let existing ← getMetadata id
  upsertMetadata (mergeMetadataPatch id patch existing fallbackScope principal) now

omit [Host] in
/-- `increment_record_revision_conn`. -/
def incrementRecordRevision (id : MemoryId) (action : String) : StoreM Unit := do
  let affected ← updateMemory id fun row => { row with recordRevision := row.recordRevision + 1 }
  require affected (.conflict ("memory " ++ id.display ++ " changed while " ++ action))

/-- Whether a patched update changes metadata only. -/
def MemoryUpdate.metadataOnly (update : MemoryUpdate) : Bool :=
  !update.hasColumnUpdates && update.entities.isNone

omit [Host] in
/-- `update_authorized_audited_impl`. -/
def updateAuthorized (id : MemoryId) (update : MemoryUpdate) (principal : String)
    (audit : Option AuditDraft) (now : Instant) : StoreM AuthorizedUpdateOutcome := do
  match ← fetchMemoryById id with
  | none => return .refused .notFound
  | some existing =>
      if existing.hasWriteAccess principal then
        validateCompatibilityCacheUpdate id update none
        let outcome ← applyUpdateInner id update (nextMemoryRevision now existing.updatedAt)
        onSome (if outcome.outcome = .applied then audit else none) fun draft =>
          insertAuditDraft existing.id (updateAuditDraftForLockedMemory draft update existing)
        return outcome
      else
        return .refused .denied

/-- The metadata and revision part of an authorized update. -/
def applyPatchAfterUpdate (id : MemoryId) (update : MemoryUpdate) (patch : Option MetadataPatch)
    (existing : Memory) (principal : String) (revisionAt : Instant) : StoreM Unit := do
  onSome patch fun changes =>
    applyMetadataPatch id changes existing.provenance.sourceConversation principal revisionAt
  onSome (if update.metadataOnly then patch else none) fun _ =>
    incrementRecordRevision id "saving"

/-- `apply_authorized_update_with_metadata`. -/
def updateAuthorizedWithMetadata (id : MemoryId) (update : MemoryUpdate)
    (patch : Option MetadataPatch) (principal : String) (audit : Option AuditDraft)
    (now : Instant) : StoreM AuthorizedUpdateOutcome := do
  match ← fetchMemoryById id with
  | none => return .refused .notFound
  | some existing =>
      if existing.hasWriteAccess principal then
        validateCompatibilityCacheUpdate id update patch
        let revisionAt := nextMemoryRevision now existing.updatedAt
        let outcome ← applyUpdateInner id update revisionAt
        if outcome.outcome = .applied then
          applyPatchAfterUpdate id update patch existing principal revisionAt
          onSome audit fun draft =>
            insertAuditDraft existing.id (updateAuditDraftForLockedMemory draft update existing)
          return outcome
        else
          return outcome
      else
        return .refused .denied

/-- The membership part of a governed update: the new compatibility scope must
be stated by the patch and by the update. -/
def replaceContextsForUpdate (id : MemoryId) (update : MemoryUpdate)
    (patch : Option MetadataPatch) (contextIds : List ContextId) (principal : String)
    (contextAudit : Option ContextAuditDraft) (revisionAt : Instant) : StoreM Unit := do
  let draft ← expect contextAudit
    (.conflict "governed membership replacement requires a context audit")
  let scope ← expect (patch.bind (·.scopeKey))
    (.conflict "membership replacement requires a compatibility scope metadata patch")
  require (update.sourceConversation == some scope)
    (.conflict ("membership replacement requires matching provenance and metadata " ++
      "compatibility scopes"))
  replaceMemoryContextsTx id contextIds principal scope draft revisionAt

/-- `apply_authorized_update_with_metadata_contexts`. -/
def updateAuthorizedWithMetadataContexts (id : MemoryId) (update : MemoryUpdate)
    (patch : Option MetadataPatch) (contextIds : Option (List ContextId)) (principal : String)
    (audit : AuditDraft) (contextAudit : Option ContextAuditDraft) (now : Instant) :
    StoreM AuthorizedUpdateOutcome := do
  require (contextIds.isSome == contextAudit.isSome)
    (.conflict "governed membership replacement requires exactly one context audit")
  match ← fetchMemoryById id with
  | none => return .refused .notFound
  | some existing =>
      if existing.hasWriteAccess principal then
        onSome (if contextIds.isNone then some () else none) fun _ =>
          validateCompatibilityCacheUpdate id update patch
        let revisionAt := nextMemoryRevision now existing.updatedAt
        let outcome ← applyUpdateInner id update revisionAt
        if outcome.outcome = .applied then
          applyPatchAfterUpdate id update patch existing principal revisionAt
          onSome contextIds fun ids =>
            replaceContextsForUpdate id update patch ids principal contextAudit revisionAt
          insertAuditDraft existing.id (updateAuditDraftForLockedMemory audit update existing)
          return outcome
        else
          return outcome
      else
        return .refused .denied

end LocalHold
