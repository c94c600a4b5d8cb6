import LocalHold.Relational.Table
import LocalHold.Transition.Transaction
import LocalHold.Types.Access
import LocalHold.Context.Types

/-!
# The SQLite database

The tables of `schema.rs` as keyed tables of typed rows.  JSON columns hold the
values they encode and timestamp columns hold instants; comparisons that SQL
makes on the stored text are made on the rendering.  Audit logs are lists, since
they are only appended to.

A stored vector carries two ghost fields, the text it was computed from and the
embedding profile it was computed under.  No operation reads them.
-/

namespace LocalHold

open Relational Transition

/-- Errors of the persistence layer. -/
inductive StoreError where
  | database (message : String)
  | serialization (message : String)
  | notFound (message : String)
  | conflict (message : String)
  | migrationFailed (step : String)
deriving DecidableEq, Repr

/-- The display form of a persistence error. -/
def StoreError.display : StoreError → String
  | .database message => "database error: " ++ message
  | .serialization message => "serialization error: " ++ message
  | .notFound message => "not found: " ++ message
  | .conflict message => "conflict: " ++ message
  | .migrationFailed step => "migration " ++ step ++ " failed"

/-- Structured audit details. -/
inductive Json where
  | null
  | bool (value : Bool)
  | number (text : String)
  | string (value : String)
  | array (items : List Json)
  | object (fields : List (String × Json))

/-! ## Embeddings -/

/-- The identity of a vector space. -/
structure EmbeddingProfile where
  provider : String
  endpoint : String
  model : String
  dimensions : Nat
deriving DecidableEq, Repr

/-- One single-precision vector component. -/
inductive Component where
  | finite (value : ℚ)
  | nan
  | infinity (negative : Bool)
deriving DecidableEq

/-- Whether a component is finite. -/
def Component.isFinite : Component → Bool
  | .finite _ => true
  | .nan => false
  | .infinity _ => false

/-- An embedding vector together with its ghost origin. -/
structure Embedding where
  values : List Component
  /-- Ghost: the text the provider embedded. -/
  source : String
  /-- Ghost: the profile of the provider that computed the vector. -/
  profile : EmbeddingProfile
deriving DecidableEq

/-! ## Rows -/

/-- A row of `memories`. -/
structure MemoryRow where
  id : MemoryId
  content : String
  tags : List String
  provenance : Provenance
  accessPolicy : AccessPolicy
  createdAt : Instant
  expiresAt : Option Instant
  hasEmbedding : Int
  embeddingRevision : Int
  recordRevision : Int
  memoryType : MemoryType
  importance : UnitScore
  impressionCount : Nat
  lastImpressedAt : Option Instant
  supersededBy : Option MemoryId
  activityMass : ℚ
  lastUsedAt : Option Instant
  updatedAt : Instant
  confidence : UnitScore
  embeddingClaimedAt : Option Instant
  embeddingClaimToken : Option String
deriving DecidableEq

/-- A row of `memory_embedding_map`. -/
structure EmbeddingMapRow where
  memoryId : MemoryId
  vecRowid : Nat
deriving DecidableEq, Repr

/-- A row of the `memory_embeddings` vector table. -/
structure VectorRow where
  rowid : Nat
  embedding : Embedding
deriving DecidableEq

/-- A row of `memory_entities`. -/
structure EntityRow where
  memoryId : MemoryId
  entity : Entity
deriving DecidableEq, Repr

/-- A row of `memory_metadata`. -/
structure MetadataRow where
  metadata : MemoryMetadata
  migratedAt : Option Instant
  updatedAt : Instant
deriving DecidableEq

/-- A row of `contexts`. -/
structure ContextRow where
  context : ContextDefinition
  normalizedKey : String
deriving DecidableEq

/-- A row of `context_aliases`. -/
structure AliasRow where
  contextId : ContextId
  aliasText : String
  normalizedAlias : String
  createdAt : Instant
deriving DecidableEq, Repr

/-- A row of `context_identities`. -/
structure IdentityRow where
  contextId : ContextId
  ownerPrincipal : String
  kind : ContextKind
  identity : ContextIdentity
  createdAt : Instant
deriving DecidableEq

/-- A row of `context_resolver_hints`. -/
structure HintRow where
  contextId : ContextId
  hint : String
  normalizedHint : String
  createdAt : Instant
deriving DecidableEq, Repr

/-- A row of `context_grants`. -/
structure GrantRow where
  contextId : ContextId
  granteePrincipal : String
  grantedBy : String
  createdAt : Instant
deriving DecidableEq, Repr

/-- A row of `context_relations`. -/
structure RelationRow where
  fromContextId : ContextId
  toContextId : ContextId
  relation : String
  createdAt : Instant
deriving DecidableEq, Repr

/-- A row of `memory_contexts`. -/
structure MembershipRow where
  memoryId : MemoryId
  contextId : ContextId
  ordinal : Nat
  createdAt : Instant
deriving DecidableEq, Repr

/-- What happened to a memory. -/
inductive AuditAction where
  | store
  | update
  | delete
  | supersede
  | bulkDelete
  | bulkUpdate
  | consolidate
  | reassign
deriving DecidableEq, Repr

/-- An audit row to be written with a mutation. -/
structure AuditDraft where
  action : AuditAction
  callerAgent : Option String
  timestamp : Instant
  details : Option Json

/-- A row of `memory_audit_log`. -/
structure AuditRow where
  memoryId : MemoryId
  draft : AuditDraft

/-- A context audit row to be written with a mutation. -/
structure ContextAuditDraft where
  actorPrincipal : String
  action : String
  contextId : Option ContextId
  memoryId : Option MemoryId
  details : Option Json

/-- A row of `context_audit_events`. -/
structure ContextAuditRow where
  actorPrincipal : String
  action : String
  contextId : Option ContextId
  memoryId : Option MemoryId
  timestamp : Instant
  details : Option Json

/-- The database shared by all processes. -/
structure Db where
  memories : Table MemoryRow.id
  embeddingMap : Table EmbeddingMapRow.memoryId
  embeddings : Table VectorRow.rowid
  /-- The largest rowid the vector table ever assigned. -/
  vectorSequence : Nat
  /-- The dimension declared by the vector table. -/
  vectorDimensions : Nat
  embeddingProfile : Option EmbeddingProfile
  entities : Table (fun row : EntityRow => (row.memoryId, row.entity))
  metadata : Table (fun row : MetadataRow => row.metadata.memoryId)
  tombstones : Table MemoryTombstone.memoryId
  auditLog : List AuditRow
  contextKinds : Table ContextKindDefinition.kind
  contexts : Table (fun row : ContextRow => row.context.id)
  contextAliases : Table (fun row : AliasRow => (row.contextId, row.normalizedAlias))
  contextIdentities : Table (fun row : IdentityRow =>
    (row.contextId, row.identity.scheme, row.identity.identityNamespace,
      row.identity.fingerprint))
  contextHints : Table (fun row : HintRow => (row.contextId, row.normalizedHint))
  contextGrants : Table (fun row : GrantRow => (row.contextId, row.granteePrincipal))
  contextRelations : Table (fun row : RelationRow =>
    (row.fromContextId, row.toContextId, row.relation))
  memoryContexts : Table (fun row : MembershipRow => (row.memoryId, row.contextId))
  kindPolicies : Table (fun row : ContextKindPolicyRecord =>
    (row.layer, row.principal, row.kind))
  anchorPolicies : Table (fun row : ContextAnchorPolicyRecord =>
    (row.anchorContextId, row.principal))
  contextAudit : List ContextAuditRow

/-- A database without rows, for vectors of the given dimension. -/
def Db.empty (dimensions : Nat) : Db where
  memories := Table.empty
  embeddingMap := Table.empty
  embeddings := Table.empty
  vectorSequence := 0
  vectorDimensions := dimensions
  embeddingProfile := none
  entities := Table.empty
  metadata := Table.empty
  tombstones := Table.empty
  auditLog := []
  contextKinds := Table.empty
  contexts := Table.empty
  contextAliases := Table.empty
  contextIdentities := Table.empty
  contextHints := Table.empty
  contextGrants := Table.empty
  contextRelations := Table.empty
  memoryContexts := Table.empty
  kindPolicies := Table.empty
  anchorPolicies := Table.empty
  contextAudit := []

/-- A store transaction.  An abort leaves the database as it was. -/
abbrev StoreM := Txn StoreError Db

end LocalHold
