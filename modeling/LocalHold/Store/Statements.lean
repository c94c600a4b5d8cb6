import LocalHold.Store.Database

/-!
# Statements, cascades and triggers

The row-level statements the store executes, with the constraints, the
`ON DELETE CASCADE` actions and the triggers of `schema.rs` folded into the
statement that fires them.  Foreign keys are enforced on every connection.
-/

namespace LocalHold

open Relational Transition Transition.Txn

/-- Text of a violated foreign key. -/
def foreignKeyError : StoreError := .database "FOREIGN KEY constraint failed"

/-- Text of a violated uniqueness constraint. -/
def uniqueError (columns : String) : StoreError :=
  .database ("UNIQUE constraint failed: " ++ columns)

/-- `row_to_memory`; entities are hydrated separately. -/
def MemoryRow.toMemory (row : MemoryRow) : Memory where
  id := row.id
  content := row.content
  tags := row.tags
  provenance := row.provenance
  accessPolicy := row.accessPolicy
  createdAt := row.createdAt
  updatedAt := row.updatedAt
  recordRevision := row.recordRevision
  expiresAt := row.expiresAt
  hasEmbedding := row.hasEmbedding != 0
  memoryType := row.memoryType
  importance := row.importance
  confidence := row.confidence
  impressionCount := row.impressionCount
  lastImpressedAt := row.lastImpressedAt
  supersededBy := row.supersededBy
  activityMass := row.activityMass
  lastUsedAt := row.lastUsedAt
  entities := []
  wasRedacted := false

/-! ## Memories -/

/-- `fetch_memory_by_id`. -/
def fetchMemoryById (id : MemoryId) : StoreM (Option Memory) :=
  reads fun db => (db.memories.find? id).map MemoryRow.toMemory

/-- `SELECT EXISTS(SELECT 1 FROM memories WHERE id = ?)`. -/
def memoryExists (id : MemoryId) : StoreM Bool :=
  reads fun db => db.memories.contains id

/-- `UPDATE memories SET … WHERE id = ? AND …`; whether a row was affected. -/
def updateMemoryWhere (id : MemoryId) (guard : MemoryRow → Bool) (change : MemoryRow → MemoryRow)
    (keepsKey : ∀ row, (change row).id = row.id := by intro _; rfl) : StoreM Bool := do
  let affected ← reads fun db =>
    match db.memories.find? id with
    | some row => guard row
    | none => false
  writes fun db =>
    { db with
      memories := db.memories.updateWhere (fun row => decide (row.id = id) && guard row) change
        keepsKey }
  return affected

/-- `UPDATE memories SET … WHERE id = ?`. -/
def updateMemory (id : MemoryId) (change : MemoryRow → MemoryRow)
    (keepsKey : ∀ row, (change row).id = row.id := by intro _; rfl) : StoreM Bool :=
  updateMemoryWhere id (fun _ => true) change keepsKey

/-- `INSERT INTO memories`. -/
def insertMemoryRow (row : MemoryRow) : StoreM Unit := do
  let next ← reads fun db => db.memories.insert? row
  let memories ← expect next (uniqueError "memories.id")
  writes fun db => { db with memories := memories }

/-- Remove a map row; the trigger removes the vector it names. -/
def Db.dropEmbedding (db : Db) (id : MemoryId) : Db :=
  match db.embeddingMap.find? id with
  | none => db
  | some mapping =>
      { db with
        embeddingMap := db.embeddingMap.delete id
        embeddings := db.embeddings.delete mapping.vecRowid }

/-- Remove a memory with everything that cascades from it, then clear the
references of the memories it superseded. -/
def Db.dropMemory (db : Db) (id : MemoryId) : Db :=
  let unmapped := db.dropEmbedding id
  { unmapped with
    memories := (db.memories.delete id).updateWhere
      (fun row => decide (row.supersededBy = some id))
      (fun row => { row with supersededBy := none, recordRevision := row.recordRevision + 1 })
    entities := db.entities.deleteWhere fun row => decide (row.memoryId = id)
    metadata := db.metadata.delete id
    memoryContexts := db.memoryContexts.deleteWhere fun row => decide (row.memoryId = id) }

/-- `DELETE FROM memories WHERE id = ?`; whether a row was affected. -/
def deleteMemoryRow (id : MemoryId) : StoreM Bool := do
  let affected ← memoryExists id
  if affected then
    writes fun db => db.dropMemory id
    return true
  else
    return false

/-! ## Vectors -/

/-- The rowid the vector table assigns next. -/
def Db.nextVectorRowid (db : Db) : Nat :=
  (db.embeddings.rows.map VectorRow.rowid).foldl max db.vectorSequence + 1

/-- The text of a non-finite component. -/
def Component.display : Component → String
  | .finite _ => ""
  | .nan => "NaN"
  | .infinity negative => if negative then "-inf" else "inf"

/-- `validate_embedding_vector`. -/
def validateEmbeddingVector (embedding : Embedding) (dimensions : Nat) : StoreM Unit := do
  require (embedding.values.length == dimensions)
    (.conflict ("embedding dimension mismatch: expected " ++ toString dimensions ++ ", got " ++
      toString embedding.values.length))
  match embedding.values.zipIdx.find? fun item => !item.1.isFinite with
  | none => pure ()
  | some item =>
      fails (.conflict ("embedding contains non-finite value at index " ++ toString item.2 ++
        ": " ++ item.1.display))

/-- `INSERT INTO memory_embeddings`; the new rowid. -/
def insertVector (embedding : Embedding) : StoreM Nat := do
  let declared ← reads Db.vectorDimensions
  require (embedding.values.length == declared)
    (.database "dimension mismatch for inserted vector")
  let rowid ← reads Db.nextVectorRowid
  let next ← reads fun db => db.embeddings.insert? ⟨rowid, embedding⟩
  let embeddings ← expect next (uniqueError "memory_embeddings.rowid")
  writes fun db => { db with embeddings := embeddings, vectorSequence := rowid }
  return rowid

/-- `DELETE FROM memory_embedding_map WHERE memory_id = ?`. -/
def deleteEmbeddingMapRow (id : MemoryId) : StoreM Unit :=
  writes fun db => db.dropEmbedding id

/-- `INSERT INTO memory_embedding_map`. -/
def insertEmbeddingMapRow (row : EmbeddingMapRow) : StoreM Unit := do
  let unclaimed ← reads fun db =>
    !db.embeddingMap.rows.any fun other => other.vecRowid == row.vecRowid
  require unclaimed (uniqueError "memory_embedding_map.vec_rowid")
  let parent ← memoryExists row.memoryId
  require parent foreignKeyError
  let next ← reads fun db => db.embeddingMap.insert? row
  let embeddingMap ← expect next (uniqueError "memory_embedding_map.memory_id")
  writes fun db => { db with embeddingMap := embeddingMap }

/-- `SqliteVecIndex::upsert`: insert the new vector, then move the mapping. -/
def vectorUpsert (dimensions : Nat) (id : MemoryId) (embedding : Embedding) : StoreM Unit := do
  validateEmbeddingVector embedding dimensions
  let rowid ← insertVector embedding
  deleteEmbeddingMapRow id
  insertEmbeddingMapRow ⟨id, rowid⟩

/-- `SqliteVecIndex::delete`. -/
def vectorDelete (id : MemoryId) : StoreM Unit :=
  deleteEmbeddingMapRow id

/-! ## Entities, metadata and audit rows -/

/-- `insert_entities`. -/
def insertEntities (id : MemoryId) (entities : List Entity) : StoreM Unit :=
  entities.forM fun entity => do
    let parent ← memoryExists id
    require parent foreignKeyError
    writes fun db => { db with entities := db.entities.insertOrIgnore ⟨id, entity⟩ }

/-- `replace_entities`. -/
def replaceEntities (id : MemoryId) (entities : List Entity) : StoreM Unit := do
  writes fun db =>
    { db with entities := db.entities.deleteWhere fun row => decide (row.memoryId = id) }
  insertEntities id entities

/-- `get_metadata_conn`. -/
def getMetadata (id : MemoryId) : StoreM (Option MemoryMetadata) :=
  reads fun db => (db.metadata.find? id).map (·.metadata)

/-- `upsert_metadata_conn`: an existing creator is kept. -/
def upsertMetadata (metadata : MemoryMetadata) (now : Instant) : StoreM Unit := do
  let parent ← memoryExists metadata.memoryId
  require parent foreignKeyError
  writes fun db =>
    let existing := db.metadata.find? metadata.memoryId
    let creator :=
      (existing.bind (·.metadata.createdByPrincipal)).or metadata.createdByPrincipal
    { db with
      metadata := db.metadata.upsert
        { metadata := { metadata with createdByPrincipal := creator }
          migratedAt := existing.bind (·.migratedAt)
          updatedAt := now } }

/-- `insert_audit_draft`. -/
def insertAuditDraft (id : MemoryId) (audit : AuditDraft) : StoreM Unit :=
  writes fun db => { db with auditLog := db.auditLog ++ [⟨id, audit⟩] }

/-- `insert_context_audit`. -/
def insertContextAudit (audit : ContextAuditDraft) (contextId : Option ContextId)
    (memoryId : Option MemoryId) (now : Instant) : StoreM Unit :=
  writes fun db =>
    { db with
      contextAudit := db.contextAudit ++
        [⟨audit.actorPrincipal, audit.action, contextId, memoryId, now, audit.details⟩] }

/-- `insert_tombstone`. -/
def insertTombstone (memory : Memory) (deletedAt : Instant) (deletedBy : Option String) :
    StoreM Unit :=
  writes fun db =>
    { db with
      tombstones := db.tombstones.upsert
        ⟨memory.id, memory.provenance, memory.accessPolicy, deletedAt, deletedBy⟩ }

end LocalHold
