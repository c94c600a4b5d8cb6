import LocalHold.Store.Embedding

/-!
# Optimistic revisions, deletion and supersession

The remaining writers of `crud.rs`: compare-and-set updates and deletes, bulk
operations, supersession marks and usage counters.
-/

namespace LocalHold

open Relational Transition Transition.Txn

variable [Host]

/-! ## Optimistic update -/

omit [Host] in
/-- Store the replacement vector of an optimistic update. -/
def storeReplacementEmbedding (dimensions : Nat) (activeProfile : Option EmbeddingProfile)
    (id : MemoryId) (embedding : Embedding) : StoreM Unit := do
  onSome activeProfile ensureEmbeddingProfileMatches
  vectorUpsert dimensions id embedding
  let affected ← updateMemory id fun row => { row with hasEmbedding := 1 }
  require affected (.conflict ("memory " ++ id.display ++ " changed while saving"))

omit [Host] in
/-- The key of the first context, or the reserved key for no context. -/
def optimisticCompatibilityScope (contextIds : List ContextId) : StoreM String :=
  match contextIds with
  | [] => pure unresolvedContextKey
  | primary :: _ => do
      let row ← reads fun db => db.contexts.find? primary
      let found ← expect row
        (.conflict ("primary context " ++ primary.display ++ " does not exist"))
      return found.context.key

/-- The metadata of a memory that has none yet. -/
def blankMetadata (id : MemoryId) (principal : String) : MemoryMetadata :=
  ⟨id, none, none, none, some principal, [], 1⟩

/-- The membership part of an optimistic update. -/
def replaceContextsOptimistically (id : MemoryId) (contextIds : List ContextId)
    (principal : String) (contextAudit : Option ContextAuditDraft) (revisionAt : Instant) :
    StoreM Unit := do
  let draft ← expect contextAudit
    (.conflict "optimistic membership replacement requires a context audit")
  let scope ← optimisticCompatibilityScope contextIds
  let existing ← getMetadata id
  upsertMetadata { existing.getD (blankMetadata id principal) with scopeKey := some scope }
    revisionAt
  replaceMemoryContextsTx id contextIds principal scope draft revisionAt

/-- The field, metadata and membership changes of an optimistic update, after
its checks. -/
def reviseUnmodified (dimensions : Nat) (activeProfile : Option EmbeddingProfile)
    (id : MemoryId) (update : MemoryUpdate) (patch : Option MetadataPatch)
    (contextIds : Option (List ContextId)) (embedding : Option Embedding) (existing : Memory)
    (principal : String) (audit : AuditDraft) (contextAudit : Option ContextAuditDraft)
    (revisionAt : Instant) : StoreM AuthorizedUpdateOutcome := do
  let outcome ← applyUpdateInner id update revisionAt
  onSome embedding (storeReplacementEmbedding dimensions activeProfile id)
  onSome patch fun changes =>
    applyMetadataPatch id changes existing.provenance.sourceConversation principal revisionAt
  onSome (if (patch.isSome || contextIds.isSome) && update.metadataOnly then some () else none)
    fun _ => incrementRecordRevision id "saving"
  onSome contextIds fun ids =>
    replaceContextsOptimistically id ids principal contextAudit revisionAt
  insertAuditDraft id (updateAuditDraftForLockedMemory audit update existing)
  return { outcome with
    reembedRevision := if embedding.isSome then none else outcome.reembedRevision }

/-- `apply_authorized_update_if_unmodified_with_metadata`. -/
def updateAuthorizedIfUnmodified (dimensions : Nat) (activeProfile : Option EmbeddingProfile)
    (id : MemoryId) (expectedRevision : Int) (update : MemoryUpdate)
    (patch : Option MetadataPatch) (contextIds : Option (List ContextId))
    (embedding : Option Embedding) (principal : String) (audit : AuditDraft)
    (contextAudit : Option ContextAuditDraft) (now : Instant) :
    StoreM AuthorizedUpdateOutcome := do
  require (embedding.isNone || update.content.isSome)
    (.conflict "a replacement embedding requires replacement content")
  onSome embedding fun vector => validateEmbeddingVector vector dimensions
  require (contextIds.isSome == contextAudit.isSome)
    (.conflict "optimistic membership replacement requires a matching context audit")
  match ← fetchMemoryById id with
  | none => return .refused .notFound
  | some existing =>
      if existing.hasWriteAccess principal then
        require (existing.recordRevision == expectedRevision)
          (.conflict ("memory " ++ id.display ++ " changed after it was opened"))
        onSome (if contextIds.isNone then some () else none) fun _ =>
          validateCompatibilityCacheUpdate id update patch
        reviseUnmodified dimensions activeProfile id update patch contextIds embedding existing
          principal audit contextAudit (nextMemoryRevision now existing.updatedAt)
      else
        return .refused .denied

/-! ## Deletion -/

omit [Host] in
/-- Write the tombstone of a memory and delete its row. -/
def entombMemory (memory : Memory) (deletedAt : Instant) (deletedBy : Option String) :
    StoreM Bool := do
  insertTombstone memory deletedAt deletedBy
  deleteMemoryRow memory.id

omit [Host] in
/-- `apply_delete`. -/
def applyDelete (id : MemoryId) (deletedAt : Instant) : StoreM Bool := do
  match ← fetchMemoryById id with
  | none => return false
  | some existing => entombMemory existing deletedAt none

omit [Host] in
/-- `apply_authorized_delete`. -/
def deleteAuthorized (id : MemoryId) (principal : String) (audit : Option AuditDraft)
    (deletedAt : Instant) : StoreM WriteOutcome := do
  match ← fetchMemoryById id with
  | none => return .notFound
  | some existing =>
      if existing.hasWriteAccess principal then
        let affected ← entombMemory existing deletedAt (some principal)
        onSome (if affected then audit else none) (insertAuditDraft existing.id)
        return if affected then .applied else .notFound
      else
        return .denied

omit [Host] in
/-- `apply_authorized_delete_if_unmodified`. -/
def deleteAuthorizedIfUnmodified (id : MemoryId) (expectedRevision : Int) (principal : String)
    (audit : AuditDraft) (deletedAt : Instant) : StoreM WriteOutcome := do
  match ← fetchMemoryById id with
  | none => return .notFound
  | some existing =>
      if existing.hasWriteAccess principal then
        require (existing.recordRevision == expectedRevision)
          (.conflict ("memory " ++ id.display ++ " changed after it was opened"))
        let affected ← entombMemory existing deletedAt (some principal)
        require affected (.conflict ("memory " ++ id.display ++ " changed while deleting"))
        insertAuditDraft id audit
        return .applied
      else
        return .denied

/-! ## Bulk operations -/

/-- `BulkAuthOutcome`. -/
structure BulkAuthOutcome where
  appliedIds : List MemoryId
  denied : Nat
deriving DecidableEq, Repr

/-- Nothing applied and nothing denied yet. -/
def BulkAuthOutcome.none : BulkAuthOutcome :=
  ⟨[], 0⟩

/-- Record an applied memory. -/
def BulkAuthOutcome.apply (outcome : BulkAuthOutcome) (id : MemoryId) : BulkAuthOutcome :=
  { outcome with appliedIds := outcome.appliedIds ++ [id] }

/-- Record a refusal. -/
def BulkAuthOutcome.deny (outcome : BulkAuthOutcome) : BulkAuthOutcome :=
  { outcome with denied := outcome.denied + 1 }

omit [Host] in
/-- One memory of a bulk delete. -/
def bulkDeleteOne (principal : String) (audit : Option AuditDraft) (deletedAt : Instant)
    (outcome : BulkAuthOutcome) (id : MemoryId) : StoreM BulkAuthOutcome := do
  match ← fetchMemoryById id with
  | none => return outcome
  | some memory =>
      if memory.hasWriteAccess principal then
        let affected ← entombMemory memory deletedAt (some principal)
        onSome (if affected then audit else none) (insertAuditDraft id)
        return if affected then outcome.apply id else outcome
      else
        return outcome.deny

omit [Host] in
/-- `bulk_delete_ids`. -/
def bulkDeleteIds (ids : List MemoryId) (principal : String) (audit : Option AuditDraft)
    (deletedAt : Instant) : StoreM BulkAuthOutcome :=
  ids.foldlM (bulkDeleteOne principal audit deletedAt) .none

omit [Host] in
/-- One memory of a bulk update. -/
def bulkUpdateOne (update : MemoryUpdate) (principal : String) (audit : Option AuditDraft)
    (now : Instant) (outcome : BulkAuthOutcome) (id : MemoryId) : StoreM BulkAuthOutcome := do
  match ← fetchMemoryById id with
  | none => return outcome
  | some memory =>
      if memory.hasWriteAccess principal then
        validateCompatibilityCacheUpdate id update none
        let updated ← applyUpdateInner id update (nextMemoryRevision now memory.updatedAt)
        onSome (if updated.outcome = .applied then audit else none) (insertAuditDraft id)
        return if updated.outcome = .applied then outcome.apply id else outcome
      else
        return outcome.deny

omit [Host] in
/-- `bulk_update_ids`. -/
def bulkUpdateIds (ids : List MemoryId) (update : MemoryUpdate) (principal : String)
    (audit : Option AuditDraft) (now : Instant) : StoreM BulkAuthOutcome :=
  ids.foldlM (bulkUpdateOne update principal audit now) .none

/-! ## Supersession -/

omit [Host] in
/-- `mark_superseded_by_authorized_audited_impl`. -/
def markSupersededByAuthorized (id supersededBy : MemoryId) (principal : String)
    (audit : Option AuditDraft) : StoreM WriteOutcome := do
  match ← fetchMemoryById id with
  | none => return .notFound
  | some existing =>
      if existing.hasWriteAccess principal then
        let marked ← markSuperseded id supersededBy
        onSome (if marked then audit else none) (insertAuditDraft existing.id)
        return if marked then .applied else .notFound
      else
        return .denied

/-- A consolidation candidate as it was discovered. -/
structure ConsolidationSnapshot where
  memoryId : MemoryId
  recordRevision : Int
  contextIds : List ContextId
deriving DecidableEq, Repr

omit [Host] in
/-- `sqlite_consolidation_context_profile`. -/
def Db.consolidationContextProfile (db : Db) (id : MemoryId) : List ContextId :=
  ((db.memoryContexts.select fun row => decide (row.memoryId = id)).mergeSort fun first second =>
    decide (first.ordinal ≤ second.ordinal)).map (·.contextId)

omit [Host] in
/-- `mark_superseded_by_authorized_audited_if_unchanged_impl`. -/
def markSupersededIfUnchanged (member representative : ConsolidationSnapshot)
    (principal : String) (audit : AuditDraft) : StoreM WriteOutcome := do
  require (member.memoryId != representative.memoryId)
    (.conflict "a consolidation representative cannot supersede itself")
  require (member.contextIds == representative.contextIds)
    (.conflict "consolidation candidates must have identical ordered context profiles")
  match ← fetchMemoryById member.memoryId with
  | none => return .notFound
  | some existingMember =>
      match ← fetchMemoryById representative.memoryId with
      | none => return .notFound
      | some existingRepresentative =>
          if existingMember.hasWriteAccess principal then
            let memberContexts ← reads fun db =>
              db.consolidationContextProfile member.memoryId
            let representativeContexts ← reads fun db =>
              db.consolidationContextProfile representative.memoryId
            require (existingMember.recordRevision == member.recordRevision &&
                existingRepresentative.recordRevision == representative.recordRevision &&
                memberContexts == member.contextIds &&
                representativeContexts == representative.contextIds)
              (.conflict "consolidation candidates changed after discovery")
            let marked ← markSuperseded member.memoryId representative.memoryId
            onSome (if marked then some audit else none) (insertAuditDraft existingMember.id)
            return if marked then .applied else .notFound
          else
            return .denied

/-! ## Usage counters -/

omit [Host] in
/-- `record_search_impression_impl`. -/
def recordSearchImpression (ids : List MemoryId) (now : Instant) : StoreM Unit :=
  ids.forM fun id => do
    let _ ← updateMemory id fun row =>
      { row with impressionCount := row.impressionCount + 1, lastImpressedAt := some now }

/-- `RecordUseOutcome`. -/
structure RecordUseOutcome where
  recordedIds : List MemoryId
  recorded : Nat
  denied : Nat
  notFound : Nat
deriving DecidableEq, Repr

omit [Host] in
/-- `update_single_memory_use`; the decay of the stored mass is a parameter. -/
def updateSingleMemoryUse (decayMass : ℚ → Option Instant → Instant → ℚ) (principal : String)
    (eventWeight : ℚ) (now : Instant) (outcome : RecordUseOutcome) (id : MemoryId) :
    StoreM RecordUseOutcome := do
  match ← fetchMemoryById id with
  | none => return { outcome with notFound := outcome.notFound + 1 }
  | some memory =>
      if memory.expiresAt.any (fun expiry => decide (expiry ≤ now)) ||
          memory.checkAccessLevel (some principal) != .full then
        return { outcome with denied := outcome.denied + 1 }
      else
        let mass := decayMass memory.activityMass memory.lastUsedAt now + eventWeight
        let _ ← updateMemory id fun row =>
          { row with activityMass := mass, lastUsedAt := some now }
        return { outcome with
          recordedIds := outcome.recordedIds ++ [id]
          recorded := outcome.recorded + 1 }

omit [Host] in
/-- `record_memory_use_impl`: repeated ids count once. -/
def recordMemoryUse (decayMass : ℚ → Option Instant → Instant → ℚ) (ids : List MemoryId)
    (principal : String) (eventWeight : ℚ) (now : Instant) : StoreM RecordUseOutcome :=
  (ids.reverse.dedup.reverse).foldlM
    (updateSingleMemoryUse decayMass principal eventWeight now) ⟨[], 0, 0, 0⟩

end LocalHold
