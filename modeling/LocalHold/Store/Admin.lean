import LocalHold.Store.Revise
import LocalHold.Store.ContextWriter

/-!
# Administrative operations

The operations of `admin.rs`: metadata maintenance, the legacy scope adapter,
scope reassignment and the purge of expired memories.  Identifiers that the
source draws from the ULID generator are arguments here.
-/

namespace LocalHold

open Relational Transition Transition.Txn

variable [Host]

/-! ## Metadata maintenance -/

omit [Host] in
/-- `upsert_metadata_audited_impl`. -/
def upsertMetadataAudited (metadata : MemoryMetadata) (audit : Option AuditDraft)
    (now : Instant) : StoreM Unit := do
  let id := metadata.memoryId
  let found ← fetchMemoryById id
  let existing ← expect found (.notFound ("memory not found: " ++ id.display))
  let expectedScope ← reads fun db => db.compatibilityScopeKey id
  require (metadata.scopeKey == some expectedScope &&
      existing.provenance.sourceConversation == some expectedScope)
    (.conflict ("metadata and provenance compatibility scopes must match the memory's " ++
      "primary governed context; replace governed memberships instead"))
  upsertMetadata metadata now
  incrementRecordRevision id "updating metadata"
  onSome audit (insertAuditDraft id)

/-- `looks_code_derived`. -/
def looksCodeDerived (content : String) : Bool :=
  decide ("```".toList <:+: content.toList) ||
    ((content.toList.splitOn '\n').take 20).any fun line =>
      let text := line.dropWhile isWhitespace
      decide ("fn ".toList <+: text) || decide ("impl ".toList <+: text)

/-- `LARGE_CONTENT_WARNING_THRESHOLD_BYTES`. -/
def largeContentWarningThresholdBytes : Nat := 4000

/-- A memory that has no metadata row yet, as the migration prepares it. -/
structure PreparedMigrationMetadata where
  id : MemoryId
  scopeKey : String
  agentLabel : Option String
  unresolvedScope : Bool
  oversized : Bool
  codeDerived : Bool
deriving DecidableEq, Repr

/-- `load_metadata_migration_candidates` and their preparation. -/
def Db.metadataMigrationRows (db : Db) : List PreparedMigrationMetadata :=
  ((db.memories.select fun row => !db.metadata.contains row.id).mergeSort createdBefore).map
    fun row =>
      let scopeKey := db.compatibilityScopeKey row.id
      { id := row.id
        scopeKey := scopeKey
        agentLabel := row.provenance.sourceAgent
        unresolvedScope := scopeKey == unresolvedContextKey
        oversized := decide (largeContentWarningThresholdBytes < row.content.utf8ByteSize)
        codeDerived := looksCodeDerived row.content }

/-- `migration_quality_flags`. -/
def migrationQualityFlags (row : PreparedMigrationMetadata) : List String :=
  ["missing_summary"] ++ (if row.unresolvedScope then ["missing_scope"] else []) ++
    (if row.oversized then ["oversized_content"] else []) ++
    (if row.codeDerived then ["possible_code_dump"] else [])

/-- `MetadataMigrationOutcome`. -/
structure MetadataMigrationOutcome where
  candidateCount : Nat
  skippedExisting : Nat
  migrated : Nat
  unresolvedScope : Nat
  missingSummary : Nat
  oversized : Nat
  codeDerived : Nat
deriving DecidableEq, Repr

/-- `metadata_migration_outcome`. -/
def metadataMigrationOutcome (rows : List PreparedMigrationMetadata) (skipped : Nat) :
    MetadataMigrationOutcome where
  candidateCount := rows.length
  skippedExisting := skipped
  migrated := 0
  unresolvedScope := (rows.filter (·.unresolvedScope)).length
  missingSummary := rows.length
  oversized := (rows.filter (·.oversized)).length
  codeDerived := (rows.filter (·.codeDerived)).length

omit [Host] in
/-- One row of `insert_metadata_migration_rows`; whether it was inserted. -/
def insertMigratedMetadata (row : PreparedMigrationMetadata) (audit : Option AuditDraft)
    (now : Instant) : StoreM Bool := do
  let present ← reads fun db => db.metadata.contains row.id
  if present then
    return false
  else
    let parent ← memoryExists row.id
    require parent foreignKeyError
    writes fun db =>
      { db with
        metadata := db.metadata.insertOrIgnore
          { metadata :=
              ⟨row.id, some row.scopeKey, none, row.agentLabel, none,
                migrationQualityFlags row, 1⟩
            migratedAt := some now
            updatedAt := now } }
    incrementRecordRevision row.id "migrating metadata"
    onSome audit (insertAuditDraft row.id)
    return true

/-- `migrate_metadata_audited_impl`. -/
def migrateMetadata (dryRun : Bool) (audit : Option AuditDraft) (now : Instant) :
    StoreM MetadataMigrationOutcome := do
  let rows ← reads Db.metadataMigrationRows
  let skipped ← reads fun db => db.metadata.rows.length
  if dryRun then
    return metadataMigrationOutcome rows skipped
  else
    let inserted ← rows.mapM fun row => insertMigratedMetadata row audit now
    return { metadataMigrationOutcome rows skipped with
      migrated := (inserted.filter id).length }

/-! ## The legacy scope adapter -/

/-- The default description of an implicitly created context. -/
def privateCompatibilityDescription : String :=
  "Private compatibility context created by legacy scope administration"

omit [Host] in
/-- The private custom context that stands for a legacy scope key. -/
def legacyAdapterContext (id : ContextId) (key displayName : String)
    (description : Option String) (principal : String) (now : Instant) : ContextDefinition where
  id := id
  kind := ContextKind.custom
  key := trim key
  displayName := displayName
  description := description
  ownerPrincipal := principal
  guidance := some "Migrate this workflow to governed context IDs."
  parentId := none
  lifecycle := .active
  frozen := false
  createdAt := now
  updatedAt := now

omit [Host] in
/-- An audit row that names the legacy key of a context. -/
def legacyKeyAudit (principal action key : String) : ContextAuditDraft :=
  ⟨principal, action, none, none, some (.object [("legacy_scope_key", .string key)])⟩

/-- Insert the context of a legacy key with its audit row. -/
def insertLegacyAdapterContext (context : ContextDefinition) (key : String) (now : Instant) :
    StoreM ContextId := do
  insertContextRow context
  insertContextAudit (legacyKeyAudit context.ownerPrincipal "legacy_scope_context_created" key)
    (some context.id) none now
  return context.id

omit [Host] in
/-- The custom context that a principal owns under a normalized key. -/
def Db.ownedCustomContext (db : Db) (principal normalized : String) :
    Option ContextDefinition :=
  (db.contexts.rows.find? fun row =>
    row.context.ownerPrincipal == principal && row.normalizedKey == normalized &&
      row.context.kind == ContextKind.custom).map (·.context)

/-- Refuse keys that cannot name a legacy context. -/
def requireLegacyKey (normalized : String) : StoreM Unit :=
  require (normalized != "" && normalized != unresolvedContextKey)
    (.conflict "legacy scope key cannot be blank or inbox/unresolved")

/-- The message for archived legacy contexts. -/
def archivedLegacyScope : StoreError :=
  .conflict ("legacy scope is archived; reactivate it in the TUI before using legacy " ++
    "administration")

/-- `ensure_private_legacy_scope_context`. -/
def ensurePrivateLegacyScopeContext (newId : ContextId) (key : String)
    (displayName description : Option String) (principal : String) (now : Instant) :
    StoreM ContextId := do
  let normalized := normalizeContextKey key
  requireLegacyKey normalized
  match ← reads fun db => db.ownedCustomContext principal normalized with
  | some existing =>
      require (!existing.frozen)
        (.conflict ("legacy scope administration can update only principal-owned mutable " ++
          "custom contexts"))
      require (existing.lifecycle == .active) archivedLegacyScope
      onSome displayName fun name => do
        let _ ← updateContext existing.id fun context =>
          { context with displayName := name, description := description, updatedAt := now }
      return existing.id
  | none =>
      let visibleForeign ← reads fun db =>
        db.contexts.rows.any fun row =>
          db.contextVisible row.context principal &&
            (row.normalizedKey == normalized ||
              db.contextAliases.rows.any fun entry =>
                entry.contextId == row.context.id && entry.normalizedAlias == normalized)
      require (!visibleForeign)
        (.conflict ("legacy scope key already belongs to another visible governed context key " ++
          "or alias and cannot be overridden"))
      let fallbackDisplay := (lastSegment? key).getD key
      insertLegacyAdapterContext
        (legacyAdapterContext newId key (displayName.getD fallbackDisplay)
          (description.or (some privateCompatibilityDescription)) principal now)
        key now

/-- `resolve_or_create_private_legacy_context`. -/
def resolveOrCreatePrivateLegacyContext (newId : ContextId) (key principal : String)
    (now : Instant) : StoreM ContextId := do
  orConflict (validateImplicitLegacyContextKey key)
  let normalized := normalizeContextKey key
  requireLegacyKey normalized
  let customEnabled ← reads fun db => db.kindIsEnabled ContextKind.custom
  require customEnabled (.conflict "context kind \"custom\" is disabled")
  match ← reads fun db => db.ownedCustomContext principal normalized with
  | some existing =>
      require (existing.lifecycle == .active) archivedLegacyScope
      return existing.id
  | none =>
      let visible ← reads fun db =>
        (db.contexts.select fun row =>
          row.normalizedKey == normalized && row.context.lifecycle == .active &&
            db.contextVisible row.context principal).map (·.context.id)
      match visible with
      | [id] => return id
      | _ :: _ :: _ =>
          fails (.conflict ("legacy scope " ++ Host.debugText key ++
            " matches multiple governed contexts; select an exact context before reassigning"))
      | [] =>
          insertLegacyAdapterContext
            (legacyAdapterContext newId key ((lastSegment? key).getD key)
              (some privateCompatibilityDescription) principal now)
            key now

/-- One related key of a registered scope. -/
def registerRelatedScope (newId contextId : ContextId) (key principal : String)
    (now : Instant) : StoreM Unit := do
  let relatedId ← ensurePrivateLegacyScopeContext newId key none
    (some "Legacy compatibility scope") principal now
  if relatedId = contextId then
    pure ()
  else
    writes fun db =>
      { db with
        contextRelations :=
          db.contextRelations.insertOrIgnore ⟨contextId, relatedId, "legacy_related", now⟩ }

/-- The parent link of a registered scope. -/
def registerScopeParent (newId contextId : ContextId) (scope : ScopeDefinition)
    (principal : String) (now : Instant) : StoreM Unit := do
  match scope.parent with
  | none =>
      let _ ← updateContext contextId fun context =>
        { context with parentId := none, updatedAt := now }
  | some key =>
      let parentId ← ensurePrivateLegacyScopeContext newId key none
        (some "Legacy compatibility scope") principal now
      require (parentId != contextId)
        (.conflict "a legacy compatibility scope cannot be its own parent")
      let cycle ← reads fun db => db.wouldCloseCycle contextId parentId
      require (!cycle) (.conflict ("legacy scope " ++ Host.debugText scope.scopeKey ++
        " parent would create a context hierarchy cycle"))
      let _ ← updateContext contextId fun context =>
        { context with parentId := some parentId, updatedAt := now }

/-- `register_legacy_scope_context`. -/
def registerLegacyScopeContext (newId : Nat → ContextId) (scope : ScopeDefinition)
    (principal : String) (now : Instant) : StoreM Unit := do
  orConflict (validateLegacyScopeDefinition scope)
  let contextId ← ensurePrivateLegacyScopeContext (newId 0) scope.scopeKey
    (some scope.displayName) scope.description principal now
  registerScopeParent (newId 1) contextId scope principal now
  writes fun db =>
    { db with
      contextAliases :=
        db.contextAliases.deleteWhere fun row => decide (row.contextId = contextId) }
  (normalizedSurfaces scope.aliases).forM fun entry =>
    insertAliasRow ⟨contextId, entry.1, entry.2, now⟩
  writes fun db =>
    { db with
      contextHints := db.contextHints.deleteWhere fun row => decide (row.contextId = contextId) }
  (normalizedSurfaces scope.matchers).forM fun entry =>
    insertHintRow ⟨contextId, entry.1, entry.2, now⟩
  writes fun db =>
    { db with
      contextRelations := db.contextRelations.deleteWhere fun row =>
        decide (row.fromContextId = contextId ∧ row.relation = "legacy_related") }
  scope.related.zipIdx.forM fun entry =>
    registerRelatedScope (newId (entry.2 + 2)) contextId entry.1 principal now
  insertContextAudit (legacyKeyAudit principal "legacy_scope_register" scope.scopeKey)
    (some contextId) none now

/-! ## Scope reassignment -/

/-- The provenance of a reassigned memory keeps where it came from. -/
def Provenance.reassigned (provenance : Provenance) (scope : String) : Provenance :=
  { provenance with
    originConversation := provenance.originConversation.or provenance.sourceConversation
    sourceConversation := some scope }

omit [Host] in
/-- The memories a reassignment selects and the caller may write. -/
def Db.reassignableIds (db : Db) (fromScope : String) (origin : Option String)
    (principal : String) : List MemoryId :=
  (db.memories.select fun row =>
    row.provenance.sourceConversation == some fromScope &&
      (origin.all fun value =>
        row.provenance.originConversation.or row.provenance.sourceConversation == some value) &&
      writeAccessAllowed row.provenance row.accessPolicy principal).map (·.id)

omit [Host] in
/-- Put the target first among the contexts of a memory. -/
def reassignedContexts (contextIds : List ContextId) (target : ContextId) : List ContextId :=
  match contextIds with
  | [] => [target]
  | _ :: rest => ((target :: rest).reverse.dedup).reverse

omit [Host] in
/-- The contexts of a memory by ordinal, then by id. -/
def Db.orderedMemberships (db : Db) (id : MemoryId) : List ContextId :=
  ((db.memoryContexts.select fun row => decide (row.memoryId = id)).mergeSort fun first second =>
    decide (first.ordinal < second.ordinal) ||
      (first.ordinal == second.ordinal && decide (first.contextId ≤ second.contextId))).map
    (·.contextId)

omit [Host] in
/-- The statements of a reassignment for one memory. -/
def reassignMemory (target : ContextId) (targetKey fromScope principal : String)
    (audit : Option AuditDraft) (now : Instant) (id : MemoryId) : StoreM Unit := do
  let _ ← updateMemory id fun row =>
    { row with provenance := row.provenance.reassigned targetKey }
  incrementRecordRevision id "reassigning scope"
  setMetadataScope id targetKey now
  let current ← reads fun db => db.orderedMemberships id
  let contextIds := reassignedContexts current target
  deleteMembershipRows id
  insertMembershipRows id contextIds now
  insertContextAudit
    ⟨principal, "legacy_scope_reassigned", none, none, some (.object
      [("from_scope", .string fromScope), ("to_scope", .string targetKey),
        ("preserved_companion_contexts", .number (toString (contextIds.length - 1)))])⟩
    (some target) (some id) now
  onSome audit (insertAuditDraft id)

/-- `apply_reassign_scope`; the applied ids. -/
def applyReassignScope (newId : ContextId) (fromScope toScope : String)
    (origin : Option String) (principal : String) (audit : Option AuditDraft) (now : Instant) :
    StoreM (List MemoryId) := do
  let authorized ← reads fun db => db.reassignableIds fromScope origin principal
  if authorized.isEmpty then
    return []
  else
    let target ← resolveOrCreatePrivateLegacyContext newId toScope principal now
    let row ← reads fun db => db.contexts.find? target
    let found ← expect row (.database "Query returned no rows")
    authorized.forM (reassignMemory target found.context.key fromScope principal audit now)
    return authorized

/-! ## Expired memories -/

/-- `ExpiredCleanupScope`. -/
inductive ExpiredCleanupScope where
  | all (actor : String)
  | authorized (actor : String)
deriving DecidableEq, Repr

/-- The principal recorded for a cleanup. -/
def ExpiredCleanupScope.actor : ExpiredCleanupScope → String
  | .all actor => actor
  | .authorized actor => actor

/-- The principal a cleanup is restricted to. -/
def ExpiredCleanupScope.authorizationPrincipal : ExpiredCleanupScope → Option String
  | .all _ => none
  | .authorized actor => some actor

/-- The expired rows of a cleanup, compared and ordered as stored text. -/
def Db.expiredRows (db : Db) (principal : Option String) (now : Instant) : List MemoryRow :=
  (db.memories.select fun row =>
      (row.expiresAt.any fun expiry =>
        decide (Host.toRfc3339 expiry ≤ Host.toRfc3339 now)) &&
        sqlWriteFilter principal row).mergeSort fun first second =>
    let firstText := (first.expiresAt.map Host.toRfc3339).getD ""
    let secondText := (second.expiresAt.map Host.toRfc3339).getD ""
    decide (firstText < secondText) ||
      (firstText == secondText && decide (first.id.display ≤ second.id.display))

omit [Host] in
/-- One expired memory; whether it was deleted. -/
def evictOne (scope : ExpiredCleanupScope) (audit : AuditDraft) (now : Instant)
    (row : MemoryRow) : StoreM Bool := do
  if scope.authorizationPrincipal.any fun principal =>
      !writeAccessAllowed row.provenance row.accessPolicy principal then
    return false
  else
    let affected ← entombMemory row.toMemory now (some scope.actor)
    onSome (if affected then some audit else none) (insertAuditDraft row.id)
    return affected

/-- `evict_expired_conn`; the number of deleted memories. -/
def evictExpired (scope : ExpiredCleanupScope) (audit : AuditDraft) (now : Instant) :
    StoreM Nat := do
  let expired ← reads fun db => db.expiredRows scope.authorizationPrincipal now
  let deleted ← expired.mapM (evictOne scope audit now)
  return (deleted.filter id).length

end LocalHold
