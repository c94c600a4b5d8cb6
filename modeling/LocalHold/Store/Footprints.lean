import LocalHold.Store.Commands

/-!
# Footprints of transactions

Which parts of the database a transaction can write at all.  Checks and lookups
leave it unchanged; the operations on contexts and on audit logs leave every
table that holds a memory, its attachments or its vector unchanged.
-/

namespace LocalHold

open Relational Transition Transition.Txn

variable [Host]

/-! ## Checks and lookups -/

omit [Host] in
theorem readsOnly_fetchMemoryById (id : MemoryId) : ReadsOnly (fetchMemoryById id) :=
  Within.reads

omit [Host] in
theorem readsOnly_memoryExists (id : MemoryId) : ReadsOnly (memoryExists id) :=
  Within.reads

omit [Host] in
theorem readsOnly_getMetadata (id : MemoryId) : ReadsOnly (getMetadata id) :=
  Within.reads

omit [Host] in
theorem readsOnly_validateEmbeddingVector (embedding : Embedding) (dimensions : Nat) :
    ReadsOnly (validateEmbeddingVector embedding dimensions) := by
  refine Within.bind Within.require fun _ => ?_
  split
  · exact Within.pure
  · exact Within.fails

omit [Host] in
theorem readsOnly_validateAuditActor (audit : ContextAuditDraft) (principal : String) :
    ReadsOnly (validateAuditActor audit principal) :=
  Within.bind Within.require fun _ => Within.require

theorem readsOnly_requireUsableContexts (contextIds preserved : List ContextId)
    (principal : String) : ReadsOnly (requireUsableContexts contextIds preserved principal) := by
  apply Within.forM
  intro contextId _
  exact Within.bind Within.reads fun _ => Within.require

omit [Host] in
theorem readsOnly_primaryContextKey (contextIds : List ContextId) :
    ReadsOnly (primaryContextKey contextIds) := by
  cases contextIds with
  | nil => exact Within.pure
  | cons primary rest =>
      refine Within.bind Within.reads fun _ => ?_
      exact Within.bind Within.expect fun _ => Within.pure

omit [Host] in
theorem readsOnly_optimisticCompatibilityScope (contextIds : List ContextId) :
    ReadsOnly (optimisticCompatibilityScope contextIds) := by
  cases contextIds with
  | nil => exact Within.pure
  | cons primary rest =>
      refine Within.bind Within.reads fun _ => ?_
      exact Within.bind Within.expect fun _ => Within.pure

omit [Host] in
theorem readsOnly_validateSupersededExists (id : MemoryId) :
    ReadsOnly (validateSupersededExists id) :=
  Within.bind (readsOnly_memoryExists id) fun _ => Within.require

omit [Host] in
theorem readsOnly_validateGovernedItem (request : GovernedItem) :
    ReadsOnly (validateGovernedItem request) := by
  refine Within.bind Within.require fun _ => ?_
  exact Within.bind Within.require fun _ => Within.expect

omit [Host] in
theorem readsOnly_validateCompatibilityCacheUpdate (id : MemoryId) (update : MemoryUpdate)
    (patch : Option MetadataPatch) :
    ReadsOnly (validateCompatibilityCacheUpdate id update patch) := by
  simp only [validateCompatibilityCacheUpdate]
  split
  · exact Within.pure
  · refine Within.bind Within.reads fun _ => ?_
    exact Within.bind Within.require fun _ => Within.require

omit [Host] in
theorem readsOnly_embeddingRevision (id : MemoryId) : ReadsOnly (embeddingRevision id) := by
  refine Within.bind Within.reads fun _ => ?_
  exact Within.bind Within.expect fun _ => Within.pure

omit [Host] in
theorem readsOnly_ensureEmbeddingProfileMatches (expected : EmbeddingProfile) :
    ReadsOnly (ensureEmbeddingProfileMatches expected) := by
  refine Within.bind Within.reads fun _ => ?_
  exact Within.bind Within.expect fun _ => Within.require

omit [Host] in
theorem readsOnly_orConflict (result : Except String Unit) : ReadsOnly (orConflict result) := by
  cases result with
  | ok value => exact Within.pure
  | error message => exact Within.fails

theorem readsOnly_validateIdentity (identity : ContextIdentity) :
    ReadsOnly (validateIdentity identity) := by
  refine Within.bind Within.require fun _ => ?_
  refine Within.bind Within.require fun _ => ?_
  refine Within.bind Within.require fun _ => ?_
  exact Within.bind Within.require fun _ => Within.require

theorem readsOnly_validateCreateDraft (draft : ContextCreateDraft) (audit : ContextAuditDraft) :
    ReadsOnly (validateCreateDraft draft audit) := by
  refine Within.bind (readsOnly_validateAuditActor audit draft.ownerPrincipal) fun _ => ?_
  iterate 9
    refine Within.bind Within.require fun _ => ?_
  exact Within.forM fun identity _ => readsOnly_validateIdentity identity

theorem readsOnly_validateCreation (draft : ContextCreateDraft) :
    ReadsOnly (validateCreation draft) := by
  refine Within.bind Within.reads fun _ => ?_
  refine Within.bind Within.expect fun _ => ?_
  refine Within.bind Within.require fun _ => ?_
  apply Within.bind
  · apply Within.onSome
    intro _ _
    exact Within.bind Within.reads fun _ => Within.require
  · intro _
    refine Within.bind Within.reads fun _ => ?_
    refine Within.bind Within.require fun _ => ?_
    refine Within.bind Within.reads fun _ => ?_
    refine Within.bind Within.require fun _ => ?_
    exact Within.bind Within.reads fun _ => Within.require

theorem readsOnly_requireMutableOwnedContext (id : ContextId) (principal : String) :
    ReadsOnly (requireMutableOwnedContext id principal) := by
  refine Within.bind Within.reads fun _ => ?_
  refine Within.bind Within.expect fun _ => ?_
  refine Within.bind Within.require fun _ => ?_
  exact Within.bind Within.require fun _ => Within.pure

omit [Host] in
theorem readsOnly_normalizeExplicitGrantee (grantee : String) :
    ReadsOnly (normalizeExplicitGrantee grantee) :=
  Within.bind Within.require fun _ => Within.pure

omit [Host] in
theorem readsOnly_normalizeExplicitGrantees (grantees : List String) :
    ReadsOnly (normalizeExplicitGrantees grantees) := by
  apply Within.foldlM
  intro _ grantee _
  refine Within.bind (readsOnly_normalizeExplicitGrantee grantee) fun _ => ?_
  exact Within.bind Within.require fun _ => Within.pure

omit [Host] in
theorem readsOnly_validateDefinitionPatchSurfaces (patch : ContextDefinitionPatch) :
    ReadsOnly (validateDefinitionPatchSurfaces patch) := by
  refine Within.bind Within.require fun _ => ?_
  refine Within.bind Within.require fun _ => ?_
  exact Within.bind Within.require fun _ => Within.require

theorem readsOnly_uniqueSurfaces (values : List String) (message : String) :
    ReadsOnly (uniqueSurfaces values message) :=
  Within.bind Within.require fun _ => Within.pure

theorem readsOnly_validateUniqueIdentities (identities : List ContextIdentity) :
    ReadsOnly (validateUniqueIdentities identities) := by
  refine Within.bind ?_ fun _ => Within.pure
  apply Within.foldlM
  intro _ identity _
  refine Within.bind (readsOnly_validateIdentity identity) fun _ => ?_
  exact Within.bind Within.require fun _ => Within.pure

theorem readsOnly_validatePolicyDefault (kind : ContextKind) (policy : ContextKindPolicy)
    (principal : String) : ReadsOnly (validatePolicyDefault kind policy principal) := by
  refine Within.bind Within.reads fun _ => ?_
  refine Within.bind Within.require fun _ => ?_
  apply Within.onSome
  intro _ _
  refine Within.bind Within.reads fun _ => ?_
  refine Within.bind Within.require fun _ => ?_
  exact Within.bind Within.reads fun _ => Within.require

/-! ## Contexts and audit logs -/

/-- The tables that hold memories, their attachments and their vectors. -/
def Db.memoryTables (db : Db) :=
  (db.memories, db.entities, db.metadata, db.memoryContexts, db.tombstones, db.embeddingMap,
    db.embeddings, db.vectorSequence, db.vectorDimensions, db.embeddingProfile)

/-- A transaction that leaves the memory tables unchanged. -/
abbrev LeavesMemories {α : Type} (body : StoreM α) : Prop :=
  Within (Keeps Db.memoryTables) body

omit [Host] in
theorem leavesMemories_insertAuditDraft (id : MemoryId) (audit : AuditDraft) :
    LeavesMemories (insertAuditDraft id audit) :=
  Within.writes fun _ => rfl

omit [Host] in
theorem leavesMemories_insertContextAudit (audit : ContextAuditDraft)
    (contextId : Option ContextId) (memoryId : Option MemoryId) (now : Instant) :
    LeavesMemories (insertContextAudit audit contextId memoryId now) :=
  Within.writes fun _ => rfl

theorem leavesMemories_insertContextRow (context : ContextDefinition) :
    LeavesMemories (insertContextRow context) := by
  refine Within.bind Within.reads fun _ => ?_
  refine Within.bind Within.require fun _ => ?_
  refine Within.bind Within.require fun _ => ?_
  refine Within.bind Within.reads fun _ => ?_
  refine Within.bind Within.require fun _ => ?_
  refine Within.bind Within.reads fun _ => ?_
  exact Within.bind Within.expect fun _ => Within.writes fun _ => rfl

omit [Host] in
theorem leavesMemories_insertAliasRow (row : AliasRow) : LeavesMemories (insertAliasRow row) := by
  refine Within.bind Within.reads fun _ => ?_
  refine Within.bind Within.require fun _ => ?_
  refine Within.bind Within.reads fun _ => ?_
  exact Within.bind Within.expect fun _ => Within.writes fun _ => rfl

omit [Host] in
theorem leavesMemories_insertIdentityRow (row : IdentityRow) :
    LeavesMemories (insertIdentityRow row) := by
  refine Within.bind Within.reads fun _ => ?_
  refine Within.bind Within.require fun _ => ?_
  refine Within.bind Within.reads fun _ => ?_
  refine Within.bind Within.require fun _ => ?_
  refine Within.bind Within.reads fun _ => ?_
  exact Within.bind Within.expect fun _ => Within.writes fun _ => rfl

omit [Host] in
theorem leavesMemories_insertHintRow (row : HintRow) : LeavesMemories (insertHintRow row) := by
  refine Within.bind Within.reads fun _ => ?_
  refine Within.bind Within.require fun _ => ?_
  refine Within.bind Within.reads fun _ => ?_
  exact Within.bind Within.expect fun _ => Within.writes fun _ => rfl

omit [Host] in
theorem leavesMemories_insertGrantRow (row : GrantRow) : LeavesMemories (insertGrantRow row) := by
  refine Within.bind Within.reads fun _ => ?_
  refine Within.bind Within.require fun _ => ?_
  refine Within.bind Within.reads fun _ => ?_
  exact Within.bind Within.expect fun _ => Within.writes fun _ => rfl

omit [Host] in
theorem leavesMemories_updateContext (id : ContextId)
    (change : ContextDefinition → ContextDefinition)
    (keepsId : ∀ context, (change context).id = context.id) :
    LeavesMemories (updateContext id change keepsId) := by
  refine Within.bind Within.reads fun _ => ?_
  exact Within.bind (Within.writes fun _ => rfl) fun _ => Within.pure

theorem leavesMemories_createContext (draft : ContextCreateDraft) (audit : ContextAuditDraft)
    (now : Instant) : LeavesMemories (createContext draft audit now) := by
  refine Within.bind (readsOnly_validateCreateDraft draft audit).within fun _ => ?_
  refine Within.bind (readsOnly_validateCreation draft).within fun _ => ?_
  refine Within.bind (leavesMemories_insertContextRow _) fun _ => ?_
  refine Within.bind (Within.forM fun _ _ => leavesMemories_insertAliasRow _) fun _ => ?_
  refine Within.bind (Within.forM fun _ _ => leavesMemories_insertIdentityRow _) fun _ => ?_
  refine Within.bind (Within.forM fun _ _ => leavesMemories_insertHintRow _) fun _ => ?_
  exact Within.bind (leavesMemories_insertContextAudit _ _ _ _) fun _ => Within.pure

theorem leavesMemories_setContextParent (id : ContextId) (parentId : Option ContextId)
    (principal : String) (audit : ContextAuditDraft) (now : Instant) :
    LeavesMemories (setContextParent id parentId principal audit now) := by
  refine Within.bind (readsOnly_validateAuditActor audit principal).within fun _ => ?_
  refine Within.bind (readsOnly_requireMutableOwnedContext id principal).within fun _ => ?_
  refine Within.bind Within.require fun _ => ?_
  refine Within.bind (Within.onSome fun _ _ => ?_) fun _ => ?_
  · refine Within.bind Within.reads fun _ => ?_
    refine Within.bind Within.require fun _ => ?_
    exact Within.bind Within.reads fun _ => Within.require
  · refine Within.bind (leavesMemories_updateContext _ _ _) fun _ => ?_
    exact Within.bind Within.require fun _ => leavesMemories_insertContextAudit _ _ _ _

theorem leavesMemories_setContextLifecycle (id : ContextId) (lifecycle : ContextLifecycle)
    (principal : String) (audit : ContextAuditDraft) (now : Instant) :
    LeavesMemories (setContextLifecycle id lifecycle principal audit now) := by
  refine Within.bind (readsOnly_validateAuditActor audit principal).within fun _ => ?_
  refine Within.bind (readsOnly_requireMutableOwnedContext id principal).within fun _ => ?_
  refine Within.bind (leavesMemories_updateContext _ _ _) fun _ => ?_
  exact Within.bind Within.require fun _ => leavesMemories_insertContextAudit _ _ _ _

theorem leavesMemories_grantContextUse (id : ContextId) (grantee principal : String)
    (audit : ContextAuditDraft) (now : Instant) :
    LeavesMemories (grantContextUse id grantee principal audit now) := by
  refine Within.bind (readsOnly_validateAuditActor audit principal).within fun _ => ?_
  refine Within.bind (readsOnly_normalizeExplicitGrantee grantee).within fun _ => ?_
  refine Within.bind (readsOnly_requireMutableOwnedContext id principal).within fun _ => ?_
  exact Within.bind (Within.writes fun _ => rfl) fun _ => leavesMemories_insertContextAudit _ _ _ _

theorem leavesMemories_revokeContextUse (id : ContextId) (grantee principal : String)
    (audit : ContextAuditDraft) (now : Instant) :
    LeavesMemories (revokeContextUse id grantee principal audit now) := by
  refine Within.bind (readsOnly_validateAuditActor audit principal).within fun _ => ?_
  refine Within.bind (readsOnly_normalizeExplicitGrantee grantee).within fun _ => ?_
  refine Within.bind (readsOnly_requireMutableOwnedContext id principal).within fun _ => ?_
  exact Within.bind (Within.writes fun _ => rfl) fun _ => leavesMemories_insertContextAudit _ _ _ _

theorem leavesMemories_replaceContextGrants (id : ContextId) (grantees : List String)
    (principal : String) (audit : ContextAuditDraft) (now : Instant) :
    LeavesMemories (replaceContextGrants id grantees principal audit now) := by
  refine Within.bind (readsOnly_normalizeExplicitGrantees grantees).within fun _ => ?_
  refine Within.bind (readsOnly_validateAuditActor audit principal).within fun _ => ?_
  refine Within.bind (readsOnly_requireMutableOwnedContext id principal).within fun _ => ?_
  refine Within.bind (Within.writes fun _ => rfl) fun _ => ?_
  refine Within.bind (Within.forM fun _ _ => leavesMemories_insertGrantRow _) fun _ => ?_
  exact leavesMemories_insertContextAudit _ _ _ _

theorem leavesMemories_updateContextDefinition (id : ContextId) (patch : ContextDefinitionPatch)
    (principal : String) (audit : ContextAuditDraft) (now : Instant) :
    LeavesMemories (updateContextDefinition id patch principal audit now) := by
  refine Within.bind (readsOnly_validateAuditActor audit principal).within fun _ => ?_
  refine Within.bind (readsOnly_validateDefinitionPatchSurfaces patch).within fun _ => ?_
  refine Within.bind (readsOnly_uniqueSurfaces _ _).within fun _ => ?_
  refine Within.bind (readsOnly_validateUniqueIdentities _).within fun _ => ?_
  refine Within.bind (readsOnly_uniqueSurfaces _ _).within fun _ => ?_
  refine Within.bind (readsOnly_requireMutableOwnedContext id principal).within fun _ => ?_
  refine Within.bind (leavesMemories_updateContext _ _ _) fun _ => ?_
  refine Within.bind (Within.writes fun _ => rfl) fun _ => ?_
  refine Within.bind (Within.forM fun _ _ => leavesMemories_insertAliasRow _) fun _ => ?_
  refine Within.bind (Within.writes fun _ => rfl) fun _ => ?_
  refine Within.bind (Within.forM fun _ _ => leavesMemories_insertIdentityRow _) fun _ => ?_
  refine Within.bind (Within.writes fun _ => rfl) fun _ => ?_
  refine Within.bind (Within.forM fun _ _ => leavesMemories_insertHintRow _) fun _ => ?_
  exact leavesMemories_insertContextAudit _ _ _ _

theorem leavesMemories_upsertContextKind (kind : ContextKind) (displayName : String)
    (enabled : Bool) (principal : String) (audit : ContextAuditDraft) (now : Instant) :
    LeavesMemories (upsertContextKind kind displayName enabled principal audit now) := by
  refine Within.bind (readsOnly_validateAuditActor audit principal).within fun _ => ?_
  refine Within.bind Within.require fun _ => ?_
  refine Within.bind Within.require fun _ => ?_
  exact Within.bind (Within.writes fun _ => rfl) fun _ => leavesMemories_insertContextAudit _ _ _ _

theorem leavesMemories_upsertContextKindPolicy (layer : ContextPolicyLayer)
    (policyPrincipal : String) (kind : ContextKind) (policy : ContextKindPolicy)
    (principal : String) (audit : ContextAuditDraft) (now : Instant) :
    LeavesMemories
      (upsertContextKindPolicy layer policyPrincipal kind policy principal audit now) := by
  refine Within.bind (readsOnly_validateAuditActor audit principal).within fun _ => ?_
  refine Within.bind (readsOnly_orConflict _).within fun _ => ?_
  refine Within.bind Within.require fun _ => ?_
  refine Within.bind Within.require fun _ => ?_
  refine Within.bind Within.require fun _ => ?_
  refine Within.bind (readsOnly_validatePolicyDefault _ _ _).within fun _ => ?_
  exact Within.bind (Within.writes fun _ => rfl) fun _ => leavesMemories_insertContextAudit _ _ _ _

theorem leavesMemories_upsertContextAnchorPolicy (anchorId : ContextId)
    (policyPrincipal : String) (policy : ContextAnchorPolicy) (principal : String)
    (audit : ContextAuditDraft) (now : Instant) :
    LeavesMemories
      (upsertContextAnchorPolicy anchorId policyPrincipal policy principal audit now) := by
  refine Within.bind (readsOnly_validateAuditActor audit principal).within fun _ => ?_
  refine Within.bind Within.require fun _ => ?_
  refine Within.bind (readsOnly_orConflict _).within fun _ => ?_
  refine Within.bind Within.reads fun _ => ?_
  refine Within.bind Within.require fun _ => ?_
  refine Within.bind (Within.forM fun _ _ => ?_) fun _ => ?_
  · exact Within.bind Within.expect fun _ => (readsOnly_validatePolicyDefault _ _ _).within
  · exact Within.bind (Within.writes fun _ => rfl) fun _ =>
      leavesMemories_insertContextAudit _ _ _ _

omit [Host] in
theorem leavesMemories_rollbackUnreferencedLegacyContext (id : ContextId) (principal : String) :
    LeavesMemories (rollbackUnreferencedLegacyContext id principal) := by
  refine Within.bind Within.reads fun _ => ?_
  split
  · exact Within.bind (Within.writes fun _ => rfl) fun _ => Within.pure
  · exact Within.pure

/-! ## Vectors -/

/-- The memories, the rows that belong to them, and the tombstones. -/
def Db.memorySide (db : Db) :=
  (db.memories, db.entities, db.metadata, db.memoryContexts, db.tombstones)

omit [Host] in
theorem Db.memorySide_dropEmbedding (db : Db) (id : MemoryId) :
    (db.dropEmbedding id).memorySide = db.memorySide := by
  unfold Db.dropEmbedding
  split <;> rfl

omit [Host] in
/-- Writing a vector touches the map and the vectors only. -/
theorem keepsMemorySide_vectorUpsert (dimensions : Nat) (id : MemoryId) (embedding : Embedding) :
    Within (Keeps Db.memorySide) (vectorUpsert dimensions id embedding) := by
  refine Within.bind (readsOnly_validateEmbeddingVector _ _).within fun _ => ?_
  refine Within.bind ?_ fun rowid => ?_
  · refine Within.bind Within.reads fun _ => ?_
    refine Within.bind Within.require fun _ => ?_
    refine Within.bind Within.reads fun _ => ?_
    refine Within.bind Within.reads fun _ => ?_
    refine Within.bind Within.expect fun _ => ?_
    exact Within.bind (Within.writes fun _ => rfl) fun _ => Within.pure
  · refine Within.bind (Within.writes fun db => db.memorySide_dropEmbedding id) fun _ => ?_
    refine Within.bind Within.reads fun _ => ?_
    refine Within.bind Within.require fun _ => ?_
    refine Within.bind Within.reads fun _ => ?_
    refine Within.bind Within.require fun _ => ?_
    refine Within.bind Within.reads fun _ => ?_
    exact Within.bind Within.expect fun _ => Within.writes fun _ => rfl

/-! ## Tombstones -/

/-- A transaction that deletes no memory. -/
abbrev KeepsTombstones {α : Type} (body : StoreM α) : Prop :=
  Within (Keeps Db.tombstones) body

omit [Host] in
theorem keepsTombstones_of_leavesMemories {α : Type} {body : StoreM α}
    (inner : LeavesMemories body) : KeepsTombstones body :=
  inner.mono fun state next same => by
    simp only [Keeps, Db.memoryTables, Prod.mk.injEq] at same
    exact same.2.2.2.2.1

omit [Host] in
theorem keepsTombstones_updateMemoryWhere (id : MemoryId) (guard : MemoryRow → Bool)
    (change : MemoryRow → MemoryRow) (keepsKey : ∀ row, (change row).id = row.id) :
    KeepsTombstones (updateMemoryWhere id guard change keepsKey) := by
  refine Within.bind Within.reads fun _ => ?_
  exact Within.bind (Within.writes fun _ => rfl) fun _ => Within.pure

omit [Host] in
theorem keepsTombstones_insertMemoryRow (row : MemoryRow) :
    KeepsTombstones (insertMemoryRow row) := by
  refine Within.bind Within.reads fun _ => ?_
  exact Within.bind Within.expect fun _ => Within.writes fun _ => rfl

omit [Host] in
theorem keepsTombstones_vectorUpsert (dimensions : Nat) (id : MemoryId) (embedding : Embedding) :
    KeepsTombstones (vectorUpsert dimensions id embedding) :=
  (keepsMemorySide_vectorUpsert dimensions id embedding).mono fun state next same => by
    simp only [Keeps, Db.memorySide, Prod.mk.injEq] at same
    exact same.2.2.2.2

omit [Host] in
theorem keepsTombstones_insertEntities (id : MemoryId) (entities : List Entity) :
    KeepsTombstones (insertEntities id entities) := by
  apply Within.forM
  intro entity _
  refine Within.bind Within.reads fun _ => ?_
  exact Within.bind Within.require fun _ => Within.writes fun _ => rfl

omit [Host] in
theorem keepsTombstones_upsertMetadata (metadata : MemoryMetadata) (now : Instant) :
    KeepsTombstones (upsertMetadata metadata now) := by
  refine Within.bind Within.reads fun _ => ?_
  exact Within.bind Within.require fun _ => Within.writes fun _ => rfl

omit [Host] in
theorem keepsTombstones_insertMembershipRows (id : MemoryId) (contextIds : List ContextId)
    (now : Instant) : KeepsTombstones (insertMembershipRows id contextIds now) := by
  apply Within.forM
  intro entry _
  refine Within.bind Within.reads fun _ => ?_
  refine Within.bind Within.require fun _ => ?_
  refine Within.bind Within.reads fun _ => ?_
  refine Within.bind Within.require fun _ => ?_
  exact Within.reads_expect_writes fun _ _ _ => rfl

theorem keepsTombstones_insertMemoryContexts (id : MemoryId) (contextIds : List ContextId)
    (principal scope : String) (audit : ContextAuditDraft) (now : Instant)
    (preserved : List ContextId) :
    KeepsTombstones
      (insertMemoryContexts id contextIds principal scope audit now preserved) := by
  refine Within.bind (readsOnly_validateAuditActor audit principal).within fun _ => ?_
  refine Within.bind Within.require fun _ => ?_
  refine Within.bind (readsOnly_requireUsableContexts _ _ _).within fun _ => ?_
  refine Within.bind (readsOnly_primaryContextKey contextIds).within fun _ => ?_
  refine Within.bind Within.require fun _ => ?_
  refine Within.bind (keepsTombstones_insertMembershipRows id contextIds now) fun _ => ?_
  exact keepsTombstones_of_leavesMemories (leavesMemories_insertContextAudit _ _ _ _)

omit [Host] in
theorem keepsTombstones_insertPrepared (dimensions : Nat) (item : MemoryWithEmbedding) :
    KeepsTombstones (insertPrepared dimensions item) := by
  refine Within.bind (keepsTombstones_insertMemoryRow _) fun _ => ?_
  refine Within.bind (Within.onSome fun _ _ => keepsTombstones_vectorUpsert _ _ _) fun _ => ?_
  exact keepsTombstones_insertEntities _ _

omit [Host] in
theorem keepsTombstones_markSuperseded (oldId newId : MemoryId) :
    KeepsTombstones (markSuperseded oldId newId) := by
  refine Within.bind (readsOnly_fetchMemoryById oldId).within fun existing => ?_
  cases existing with
  | none => exact Within.pure
  | some memory =>
      refine Within.bind Within.require fun _ => ?_
      refine Within.bind (keepsTombstones_updateMemoryWhere _ _ _ _) fun _ => ?_
      exact Within.bind Within.require fun _ => Within.pure

omit [Host] in
theorem keepsTombstones_insertPreparedWithSupersession (dimensions : Nat)
    (item : MemoryWithEmbedding) (supersedes : Option MemoryId) (audit : Option AuditDraft) :
    KeepsTombstones (insertPreparedWithSupersession dimensions item supersedes audit) := by
  refine Within.bind (Within.onSome fun _ _ => (readsOnly_validateSupersededExists _).within)
    fun _ => ?_
  refine Within.bind (keepsTombstones_insertPrepared dimensions item) fun _ => ?_
  refine Within.bind (Within.onSome fun _ _ => ?_) fun _ => ?_
  · exact Within.bind (keepsTombstones_markSuperseded _ _) fun _ => Within.pure
  · exact Within.onSome fun _ _ =>
      keepsTombstones_of_leavesMemories (leavesMemories_insertAuditDraft _ _)

theorem keepsTombstones_storeGovernedItem (dimensions : Nat) (request : GovernedItem)
    (principal : String) (now : Instant) :
    KeepsTombstones (storeGovernedItem dimensions request principal now) := by
  refine Within.bind ?_ fun _ => keepsTombstones_insertMemoryContexts _ _ _ _ _ _ _
  refine Within.bind (keepsTombstones_insertPreparedWithSupersession _ _ _ _) fun _ => ?_
  exact keepsTombstones_upsertMetadata _ _

/-! ## The legacy scope adapter -/

theorem leavesMemories_insertLegacyAdapterContext (context : ContextDefinition) (key : String)
    (now : Instant) : LeavesMemories (insertLegacyAdapterContext context key now) := by
  refine Within.bind (leavesMemories_insertContextRow context) fun _ => ?_
  exact Within.bind (leavesMemories_insertContextAudit _ _ _ _) fun _ => Within.pure

theorem leavesMemories_ensurePrivateLegacyScopeContext (newId : ContextId) (key : String)
    (displayName description : Option String) (principal : String) (now : Instant) :
    LeavesMemories
      (ensurePrivateLegacyScopeContext newId key displayName description principal now) := by
  refine Within.bind Within.require fun _ => ?_
  refine Within.bind Within.reads fun existing => ?_
  cases existing with
  | some context =>
      refine Within.bind Within.require fun _ => ?_
      refine Within.bind Within.require fun _ => ?_
      refine Within.bind (Within.onSome fun _ _ => ?_) fun _ => Within.pure
      exact Within.bind (leavesMemories_updateContext _ _ _) fun _ => Within.pure
  | none =>
      refine Within.bind Within.reads fun _ => ?_
      exact Within.bind Within.require fun _ => leavesMemories_insertLegacyAdapterContext _ _ _

theorem leavesMemories_resolveOrCreatePrivateLegacyContext (newId : ContextId)
    (key principal : String) (now : Instant) :
    LeavesMemories (resolveOrCreatePrivateLegacyContext newId key principal now) := by
  refine Within.bind (readsOnly_orConflict _).within fun _ => ?_
  refine Within.bind Within.require fun _ => ?_
  refine Within.bind Within.reads fun _ => ?_
  refine Within.bind Within.require fun _ => ?_
  refine Within.bind Within.reads fun existing => ?_
  cases existing with
  | some context => exact Within.bind Within.require fun _ => Within.pure
  | none =>
      refine Within.bind Within.reads fun visible => ?_
      match visible with
      | [] => exact leavesMemories_insertLegacyAdapterContext _ _ _
      | [_] => exact Within.pure
      | _ :: _ :: _ => exact Within.fails

theorem leavesMemories_registerScopeParent (newId contextId : ContextId) (scope : ScopeDefinition)
    (principal : String) (now : Instant) :
    LeavesMemories (registerScopeParent newId contextId scope principal now) := by
  unfold registerScopeParent
  split
  · exact Within.bind (leavesMemories_updateContext _ _ _) fun _ => Within.pure
  · refine Within.bind (leavesMemories_ensurePrivateLegacyScopeContext _ _ _ _ _ _) fun _ => ?_
    refine Within.bind Within.require fun _ => ?_
    refine Within.bind Within.reads fun _ => ?_
    refine Within.bind Within.require fun _ => ?_
    exact Within.bind (leavesMemories_updateContext _ _ _) fun _ => Within.pure

theorem leavesMemories_registerRelatedScope (newId contextId : ContextId) (key principal : String)
    (now : Instant) :
    LeavesMemories (registerRelatedScope newId contextId key principal now) := by
  refine Within.bind (leavesMemories_ensurePrivateLegacyScopeContext _ _ _ _ _ _) fun _ => ?_
  split
  · exact Within.pure
  · exact Within.writes fun _ => rfl

theorem leavesMemories_registerLegacyScopeContext (newId : Nat → ContextId)
    (scope : ScopeDefinition) (principal : String) (now : Instant) :
    LeavesMemories (registerLegacyScopeContext newId scope principal now) := by
  refine Within.bind (readsOnly_orConflict _).within fun _ => ?_
  refine Within.bind (leavesMemories_ensurePrivateLegacyScopeContext _ _ _ _ _ _) fun _ => ?_
  refine Within.bind (leavesMemories_registerScopeParent _ _ _ _ _) fun _ => ?_
  refine Within.bind (Within.writes fun _ => rfl) fun _ => ?_
  refine Within.bind (Within.forM fun _ _ => leavesMemories_insertAliasRow _) fun _ => ?_
  refine Within.bind (Within.writes fun _ => rfl) fun _ => ?_
  refine Within.bind (Within.forM fun _ _ => leavesMemories_insertHintRow _) fun _ => ?_
  refine Within.bind (Within.writes fun _ => rfl) fun _ => ?_
  refine Within.bind (Within.forM fun _ _ => leavesMemories_registerRelatedScope _ _ _ _ _)
    fun _ => ?_
  exact leavesMemories_insertContextAudit _ _ _ _

end LocalHold
