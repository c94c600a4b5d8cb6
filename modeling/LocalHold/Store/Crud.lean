import LocalHold.Store.Memberships

/-!
# Storing, updating and deleting memories

The write paths of `crud.rs`.  Every definition is one transaction; the store
methods that differ only in an audit row share a definition with an optional
draft.
-/

namespace LocalHold

open Relational Transition Transition.Txn

variable [Host]

/-! ## Storing -/

/-- A memory to be stored, with its vector when the caller has one. -/
structure MemoryWithEmbedding where
  memory : Memory
  embedding : Option Embedding

omit [Host] in
/-- The row that `PreparedMemoryRow::from_memory` prepares. -/
def preparedMemoryRow (item : MemoryWithEmbedding) : MemoryRow where
  id := item.memory.id
  content := item.memory.content
  tags := item.memory.tags
  provenance := item.memory.provenance
  accessPolicy := item.memory.accessPolicy
  createdAt := item.memory.createdAt
  expiresAt := item.memory.expiresAt
  hasEmbedding := if item.embedding.isSome then 1 else 0
  embeddingRevision := 0
  recordRevision := item.memory.recordRevision
  memoryType := item.memory.memoryType
  importance := item.memory.importance
  impressionCount := item.memory.impressionCount
  lastImpressedAt := item.memory.lastImpressedAt
  supersededBy := item.memory.supersededBy
  activityMass := item.memory.activityMass
  lastUsedAt := item.memory.lastUsedAt
  updatedAt := item.memory.updatedAt
  confidence := item.memory.confidence
  embeddingClaimedAt := none
  embeddingClaimToken := none

omit [Host] in
/-- `PreparedMemoryRow::insert`. -/
def insertPrepared (dimensions : Nat) (item : MemoryWithEmbedding) : StoreM Unit := do
  insertMemoryRow (preparedMemoryRow item)
  onSome item.embedding fun embedding => vectorUpsert dimensions item.memory.id embedding
  insertEntities item.memory.id item.memory.entities

omit [Host] in
/-- `validate_superseded_exists`. -/
def validateSupersededExists (id : MemoryId) : StoreM Unit := do
  let present ← memoryExists id
  require present (.notFound ("superseded memory not found: " ++ id.display))

omit [Host] in
/-- `mark_superseded`: a memory is superseded at most once. -/
def markSuperseded (oldId newId : MemoryId) : StoreM Bool := do
  match ← fetchMemoryById oldId with
  | none => return false
  | some existing =>
      require existing.supersededBy.isNone
        (.conflict ("memory " ++ oldId.display ++ " is already superseded"))
      let affected ← updateMemoryWhere oldId (fun row => row.supersededBy.isNone) fun row =>
        { row with supersededBy := some newId, recordRevision := row.recordRevision + 1 }
      require affected
        (.conflict ("memory " ++ oldId.display ++ " changed while superseding"))
      return true

omit [Host] in
/-- `insert_prepared_with_optional_supersession_and_audit`. -/
def insertPreparedWithSupersession (dimensions : Nat) (item : MemoryWithEmbedding)
    (supersedes : Option MemoryId) (audit : Option AuditDraft) : StoreM Unit := do
  onSome supersedes validateSupersededExists
  insertPrepared dimensions item
  onSome supersedes fun oldId => do
    let _ ← markSuperseded oldId item.memory.id
  onSome audit (insertAuditDraft item.memory.id)

omit [Host] in
/-- `store_audited_impl`. -/
def store (dimensions : Nat) (item : MemoryWithEmbedding) (audit : Option AuditDraft) :
    StoreM MemoryId := do
  insertPrepared dimensions item
  onSome audit (insertAuditDraft item.memory.id)
  return item.memory.id

omit [Host] in
/-- `store_with_supersession_audited_impl`. -/
def storeWithSupersession (dimensions : Nat) (item : MemoryWithEmbedding)
    (supersedes : MemoryId) (audit : Option AuditDraft) : StoreM MemoryId := do
  insertPreparedWithSupersession dimensions item (some supersedes) audit
  return item.memory.id

omit [Host] in
/-- `validate_metadata_memory_id`. -/
def validateMetadataMemoryId (id : MemoryId) (metadata : MemoryMetadata) : StoreM Unit :=
  require (metadata.memoryId == id)
    (.conflict ("metadata memory_id (" ++ metadata.memoryId.display ++
      ") must match memory id (" ++ id.display ++ ")"))

omit [Host] in
/-- One memory with metadata, as single and batch stores insert it. -/
def storeItemWithMetadata (dimensions : Nat) (item : MemoryWithEmbedding)
    (supersedes : Option MemoryId) (metadata : MemoryMetadata) (audit : Option AuditDraft)
    (now : Instant) : StoreM Unit := do
  insertPreparedWithSupersession dimensions item supersedes audit
  upsertMetadata metadata now

omit [Host] in
/-- `store_with_metadata_audited_impl`. -/
def storeWithMetadata (dimensions : Nat) (item : MemoryWithEmbedding)
    (supersedes : Option MemoryId) (metadata : MemoryMetadata) (audit : Option AuditDraft)
    (now : Instant) : StoreM MemoryId := do
  validateMetadataMemoryId item.memory.id metadata
  storeItemWithMetadata dimensions item supersedes metadata audit now
  return item.memory.id

/-- A governed store request. -/
structure GovernedItem where
  item : MemoryWithEmbedding
  supersedes : Option MemoryId
  metadata : MemoryMetadata
  contextIds : List ContextId
  audit : AuditDraft
  contextAudit : ContextAuditDraft

/-- The compatibility scope a governed item states. -/
def GovernedItem.compatibilityScope (request : GovernedItem) : String :=
  request.metadata.scopeKey.getD unresolvedContextKey

/-- The checks a governed item passes before the transaction starts; the
source principal is returned. -/
def validateGovernedItem (request : GovernedItem) : StoreM String := do
  validateMetadataMemoryId request.item.memory.id request.metadata
  require (request.item.memory.provenance.sourceConversation == some request.compatibilityScope)
    (.conflict "memory provenance and metadata compatibility scope must match")
  expect (request.item.memory.provenance.sourceAgent.filter fun name => !isBlank name)
    (.conflict "governed memory writes require a source principal")

/-- The statements of one governed store. -/
def storeGovernedItem (dimensions : Nat) (request : GovernedItem) (principal : String)
    (now : Instant) : StoreM Unit := do
  storeItemWithMetadata dimensions request.item request.supersedes request.metadata
    (some request.audit) now
  insertInitialMemoryContexts request.item.memory.id request.contextIds principal
    request.compatibilityScope request.contextAudit now

/-- `store_with_metadata_contexts_audited_impl`. -/
def storeWithMetadataContexts (dimensions : Nat) (request : GovernedItem) (now : Instant) :
    StoreM MemoryId := do
  let principal ← validateGovernedItem request
  storeGovernedItem dimensions request principal now
  return request.item.memory.id

omit [Host] in
/-- Abort when a companion list of a batch has the wrong length. -/
def requireLength (label : String) (expected actual : Nat) : StoreM Unit :=
  require (actual == expected)
    (.conflict (label ++ " length (" ++ toString actual ++ ") must match memories length (" ++
      toString expected ++ ")"))

omit [Host] in
/-- `store_batch_audited_impl`. -/
def storeBatch (dimensions : Nat) (items : List MemoryWithEmbedding)
    (audits : Option (List AuditDraft)) : StoreM (List MemoryId) := do
  onSome audits fun drafts => requireLength "audit" items.length drafts.length
  items.zipIdx.forM fun entry => do
    insertPrepared dimensions entry.1
    onSome (audits.bind (·[entry.2]?)) (insertAuditDraft entry.1.memory.id)
  return items.map (·.memory.id)

omit [Host] in
/-- `store_batch_with_supersession_audited_impl`. -/
def storeBatchWithSupersession (dimensions : Nat) (items : List MemoryWithEmbedding)
    (supersedes : List (Option MemoryId)) (audits : Option (List AuditDraft)) :
    StoreM (List MemoryId) := do
  requireLength "supersedes" items.length supersedes.length
  onSome audits fun drafts => requireLength "audit" items.length drafts.length
  items.zipIdx.forM fun entry =>
    insertPreparedWithSupersession dimensions entry.1 (supersedes[entry.2]?).join
      (audits.bind (·[entry.2]?))
  return items.map (·.memory.id)

omit [Host] in
/-- `store_batch_with_metadata_audited_impl`. -/
def storeBatchWithMetadata (dimensions : Nat) (items : List MemoryWithEmbedding)
    (supersedes : List (Option MemoryId)) (metadata : List MemoryMetadata)
    (audits : Option (List AuditDraft)) (now : Instant) : StoreM (List MemoryId) := do
  requireLength "metadata" items.length metadata.length
  requireLength "supersedes" items.length supersedes.length
  onSome audits fun drafts => requireLength "audit" items.length drafts.length
  (items.zip metadata).forM fun entry => validateMetadataMemoryId entry.1.memory.id entry.2
  (items.zip metadata).zipIdx.forM fun entry =>
    storeItemWithMetadata dimensions entry.1.1 (supersedes[entry.2]?).join entry.1.2
      (audits.bind (·[entry.2]?)) now
  return items.map (·.memory.id)

omit [Host] in
/-- The requests of a governed batch, read across its companion lists. -/
def governedItems : List MemoryWithEmbedding → List (Option MemoryId) → List MemoryMetadata →
    List (List ContextId) → List AuditDraft → List ContextAuditDraft → List GovernedItem
  | item :: items, oldId :: supersedes, metadata :: restMetadata, ids :: contextIds,
      audit :: audits, contextAudit :: contextAudits =>
      ⟨item, oldId, metadata, ids, audit, contextAudit⟩ ::
        governedItems items supersedes restMetadata contextIds audits contextAudits
  | _, _, _, _, _, _ => []

omit [Host] in
theorem item_mem_of_mem_governedItems {items : List MemoryWithEmbedding}
    {supersedes : List (Option MemoryId)} {metadata : List MemoryMetadata}
    {contextIds : List (List ContextId)} {audits : List AuditDraft}
    {contextAudits : List ContextAuditDraft} {request : GovernedItem}
    (requestMem : request ∈
      governedItems items supersedes metadata contextIds audits contextAudits) :
    request.item ∈ items := by
  induction items, supersedes, metadata, contextIds, audits, contextAudits using
      governedItems.induct with
  | case1 item items oldId supersedes metadata restMetadata ids contextIds audit audits
      contextAudit contextAudits inductionHypothesis =>
      rw [governedItems] at requestMem
      rcases List.mem_cons.mp requestMem with rfl | later
      · exact List.mem_cons_self
      · exact List.mem_cons_of_mem item (inductionHypothesis later)
  | case2 => simp [governedItems] at requestMem

omit [Host] in
theorem map_item_governedItems {items : List MemoryWithEmbedding}
    {supersedes : List (Option MemoryId)} {metadata : List MemoryMetadata}
    {contextIds : List (List ContextId)} {audits : List AuditDraft}
    {contextAudits : List ContextAuditDraft}
    (supersedesLength : supersedes.length = items.length)
    (metadataLength : metadata.length = items.length)
    (contextsLength : contextIds.length = items.length)
    (auditsLength : audits.length = items.length)
    (contextAuditsLength : contextAudits.length = items.length) :
    (governedItems items supersedes metadata contextIds audits contextAudits).map (·.item) =
      items := by
  induction items, supersedes, metadata, contextIds, audits, contextAudits using
      governedItems.induct with
  | case1 item items oldId supersedes metadata restMetadata ids contextIds audit audits
      contextAudit contextAudits inductionHypothesis =>
      simp only [List.length_cons, Nat.add_right_cancel_iff] at *
      rw [governedItems, List.map_cons, inductionHypothesis supersedesLength metadataLength
        contextsLength auditsLength contextAuditsLength]
  | case2 items supersedes metadata contextIds audits contextAudits mismatch =>
      cases items with
      | nil => simp [governedItems]
      | cons item items =>
          obtain ⟨oldId, restSupersedes, rfl⟩ := List.exists_cons_of_length_eq_add_one
            supersedesLength
          obtain ⟨first, restMetadata, rfl⟩ := List.exists_cons_of_length_eq_add_one
            metadataLength
          obtain ⟨ids, restContexts, rfl⟩ := List.exists_cons_of_length_eq_add_one
            contextsLength
          obtain ⟨audit, restAudits, rfl⟩ := List.exists_cons_of_length_eq_add_one auditsLength
          obtain ⟨contextAudit, restContextAudits, rfl⟩ :=
            List.exists_cons_of_length_eq_add_one contextAuditsLength
          exact absurd rfl (mismatch _ _ _ _ _ _ _ _ _ _ _ _ rfl rfl rfl rfl rfl)

/-- `store_batch_with_metadata_contexts_audited_impl`. -/
def storeBatchWithMetadataContexts (dimensions : Nat) (items : List MemoryWithEmbedding)
    (supersedes : List (Option MemoryId)) (metadata : List MemoryMetadata)
    (contextIds : List (List ContextId)) (audits : List AuditDraft)
    (contextAudits : List ContextAuditDraft) (now : Instant) : StoreM (List MemoryId) := do
  let expected := items.length
  require (supersedes.length == expected && metadata.length == expected &&
      contextIds.length == expected && audits.length == expected &&
      contextAudits.length == expected)
    (.conflict "governed batch companion lengths must match memories")
  let requests := governedItems items supersedes metadata contextIds audits contextAudits
  let principals ← requests.mapM validateGovernedItem
  (requests.zip principals).forM fun entry =>
    storeGovernedItem dimensions entry.1 entry.2 now
  return items.map (·.memory.id)

end LocalHold
