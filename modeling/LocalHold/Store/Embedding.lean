import LocalHold.Store.Update

/-!
# Embedding profiles, leases and write-back

The operations of `sqlite.rs`, `admin.rs` and `crud.rs` that govern vectors: the
recorded embedding profile, the re-embed queue with its leases, and the
write-back of a computed vector.  A process writes vectors under the profile it
verified when it opened the store.
-/

namespace LocalHold

open Relational Transition Transition.Txn

/-! ## The recorded profile -/

/-- `profile_mismatch`. -/
def profileMismatch (existing configured : EmbeddingProfile) : StoreError :=
  .conflict ("embedding profile mismatch: database uses " ++ existing.provider ++ " model '" ++
    existing.model ++ "' at '" ++ existing.endpoint ++ "' with " ++
    toString existing.dimensions ++ " dimensions, but config selects " ++ configured.provider ++
    " model '" ++ configured.model ++ "' at '" ++ configured.endpoint ++ "' with " ++
    toString configured.dimensions ++
    " dimensions; run `hold embeddings reindex --yes` to rebuild all vectors")

/-- `ensure_embedding_profile_matches`. -/
def ensureEmbeddingProfileMatches (expected : EmbeddingProfile) : StoreM Unit := do
  let recorded ← reads Db.embeddingProfile
  let current ← expect recorded
    (.conflict ("embedding profile was removed while this server was running; " ++
      "restart before writing vectors"))
  require (current == expected) (profileMismatch current expected)

/-- `insert_embedding_profile`. -/
def insertEmbeddingProfile (profile : EmbeddingProfile) : StoreM Unit := do
  require (profile.dimensions < 2 ^ 63)
    (.conflict "embedding dimensions exceed SQLite INTEGER")
  writes fun db => { db with embeddingProfile := some profile }

/-- `verify_embedding_profile_conn`: a database without a profile is stamped
when it holds no vectors. -/
def verifyEmbeddingProfile (profile : EmbeddingProfile) : StoreM Unit := do
  match ← reads Db.embeddingProfile with
  | some existing => require (existing == profile) (profileMismatch existing profile)
  | none =>
      let vectorCount ← reads fun db => db.embeddingMap.rows.length
      require (vectorCount == 0)
        (.conflict ("existing embeddings have no recorded provider/model identity; run " ++
          "`hold embeddings reindex --yes` before starting with an active embedding provider"))
      insertEmbeddingProfile profile

/-- A row without vector and without lease. -/
def MemoryRow.withoutEmbedding (row : MemoryRow) : MemoryRow :=
  { row with hasEmbedding := 0, embeddingClaimedAt := none, embeddingClaimToken := none }

/-- The transaction of `reindex_embeddings`: clear every vector, rebuild the
vector table and record the new profile. -/
def reindexEmbeddings (profile : EmbeddingProfile) : StoreM Unit := do
  writes fun db =>
    { db with
      embeddingMap := Table.empty
      embeddings := Table.empty
      vectorSequence := 0
      vectorDimensions := profile.dimensions
      memories := db.memories.updateWhere (fun _ => true) MemoryRow.withoutEmbedding }
  insertEmbeddingProfile profile

/-! ## The re-embed queue -/

/-- The row filter that the store's SQL derives from the write policy; no
principal selects every row. -/
def sqlWriteFilter (principal : Option String) (row : MemoryRow) : Bool :=
  match principal with
  | none => true
  | some name =>
      row.provenance.sourceAgent == some name ||
        match row.accessPolicy with
        | .publicPolicy => row.provenance.sourceAgent.isNone
        | .restricted allowed => allowed.contains name
        | .redacted _ => false

/-- `EMBEDDING_CLAIM_LEASE_SECS`, in nanoseconds. -/
def embeddingClaimLease : Instant := 300 * 1000000000

/-- A unit of embedding work: the content to embed and the revision that must
still be current when the vector is written. -/
structure ReembedClaim where
  id : MemoryId
  content : String
  embeddingRevision : Int
  claimToken : String
deriving DecidableEq, Repr

/-- `ORDER BY created_at ASC, id ASC` on the stored text. -/
def createdBefore [Host] (first second : MemoryRow) : Bool :=
  decide (Host.toRfc3339 first.createdAt < Host.toRfc3339 second.createdAt) ||
    (Host.toRfc3339 first.createdAt == Host.toRfc3339 second.createdAt &&
      decide (first.id.display ≤ second.id.display))

/-- Whether no live lease covers a row; leases are compared as stored text. -/
def leaseExpired [Host] (expiredBefore : Instant) (row : MemoryRow) : Bool :=
  row.embeddingClaimedAt.all fun claimedAt =>
    decide (Host.toRfc3339 claimedAt ≤ Host.toRfc3339 expiredBefore)

/-- The rows a claim may take, oldest first. -/
def Db.reembedCandidates [Host] (db : Db) (principal : Option String) (expiredBefore : Instant)
    (limit : Nat) : List MemoryRow :=
  ((db.memories.select fun row =>
      row.hasEmbedding == 0 && leaseExpired expiredBefore row &&
        sqlWriteFilter principal row).mergeSort createdBefore).take limit

/-- `claim_for_reembed_conn`: lease the candidates and return their content and
revision from one statement. -/
def claimForReembed [Host] (principal : Option String) (limit : Nat) (token : String)
    (now : Instant) : StoreM (List ReembedClaim) := do
  let expiredBefore := now - embeddingClaimLease
  let candidates ← reads fun db => db.reembedCandidates principal expiredBefore limit
  writes fun db =>
    { db with
      memories := db.memories.updateWhere
        (fun row => row.hasEmbedding == 0 && leaseExpired expiredBefore row &&
          candidates.any fun candidate =>
            candidate.id == row.id && candidate.embeddingRevision == row.embeddingRevision)
        fun row => { row with embeddingClaimedAt := some now, embeddingClaimToken := some token } }
  return candidates.map fun row => ⟨row.id, row.content, row.embeddingRevision, token⟩

/-- `release_embedding_claim_impl`. -/
def releaseEmbeddingClaim (id : MemoryId) (expectedRevision : Int) (token : String) :
    StoreM Bool :=
  updateMemoryWhere id
    (fun row => row.hasEmbedding == 0 && row.embeddingRevision == expectedRevision &&
      row.embeddingClaimToken == some token)
    fun row => { row with embeddingClaimedAt := none, embeddingClaimToken := none }

/-- The first statement of `get_for_reembed_impl`: the content, when the caller
may write the memory.  `embeddingRevision` is the second statement. -/
def contentForReembed (id : MemoryId) (principal : String) : StoreM (Option String) := do
  match ← fetchMemoryById id with
  | none => return none
  | some existing =>
      if existing.hasWriteAccess principal then
        return some existing.content
      else
        return none

/-! ## Write-back -/

/-- `set_embedding_impl`. -/
def setEmbedding (dimensions : Nat) (activeProfile : Option EmbeddingProfile) (id : MemoryId)
    (embedding : Embedding) (expectedRevision : Int) : StoreM Unit := do
  validateEmbeddingVector embedding dimensions
  onSome activeProfile ensureEmbeddingProfileMatches
  let row ← reads fun db => db.memories.find? id
  let current ← expect row (.notFound ("memory not found: " ++ id.display))
  require (current.embeddingRevision == expectedRevision)
    (.conflict ("embedding revision mismatch for " ++ id.display ++ ": expected " ++
      toString expectedRevision ++ ", current " ++ toString current.embeddingRevision))
  vectorUpsert dimensions id embedding
  let affected ← updateMemoryWhere id
    (fun row => row.embeddingRevision == expectedRevision)
    fun row =>
      { row with hasEmbedding := 1, embeddingClaimedAt := none, embeddingClaimToken := none }
  require affected
    (.conflict ("embedding revision changed while writing embedding for " ++ id.display))

end LocalHold
