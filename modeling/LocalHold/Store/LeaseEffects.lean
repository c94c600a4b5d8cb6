import LocalHold.Store.RowRules

/-!
# What a command can do to leases

Apart from a claim, a release and a reindex, no command takes the lease of a
memory at its embedding revision, unless it embeds the memory.
-/

namespace LocalHold

open Relational Transition Transition.Txn

/-! ## Rules for all writes to other tables -/

/-- A relation that holds across rewrites of memory rows and across writes to
any other table. -/
structure MemoryRules (relation : Db → Db → Prop) : Prop where
  apart : ∀ {db next : Db}, next.memories = db.memories → relation db next
  rewrites : ∀ {db : Db} {hit : MemoryRow → Bool} {change : MemoryRow → MemoryRow}
    {keepsKey : ∀ row, (change row).id = row.id}, (∀ row, LeaseKept row (change row)) →
    relation db { db with memories := db.memories.updateWhere hit change keepsKey }

namespace MemoryRules

variable {relation : Db → Db → Prop} (rules : MemoryRules relation)

include rules

theorem rowRules : RowRules relation :=
  ⟨fun memories _ => rules.apart memories, rules.rewrites⟩

theorem setMetadataScope (id : MemoryId) (scope : String) (now : Instant) :
    Within relation (LocalHold.setMetadataScope id scope now) :=
  Within.writes fun _ => rules.apart rfl

variable [Std.Refl relation] [IsTrans Db relation]

theorem upsertMetadata (metadata : MemoryMetadata) (now : Instant) :
    Within relation (LocalHold.upsertMetadata metadata now) := by
  refine Within.bind Within.reads fun _ => ?_
  exact Within.bind Within.require fun _ => Within.writes fun _ => rules.apart rfl

theorem upsertMetadataAudited (metadata : MemoryMetadata) (audit : Option AuditDraft)
    (now : Instant) : Within relation (LocalHold.upsertMetadataAudited metadata audit now) := by
  refine Within.bind Within.reads fun _ => ?_
  refine Within.bind Within.expect fun _ => ?_
  refine Within.bind Within.reads fun _ => ?_
  refine Within.bind Within.require fun _ => ?_
  refine Within.bind (rules.upsertMetadata metadata now) fun _ => ?_
  refine Within.bind (rules.rowRules.incrementRecordRevision _ _) fun _ => ?_
  exact Within.onSome fun _ _ => rules.rowRules.insertAuditDraft _ _

theorem insertMigratedMetadata (row : PreparedMigrationMetadata) (audit : Option AuditDraft)
    (now : Instant) : Within relation (LocalHold.insertMigratedMetadata row audit now) := by
  refine Within.bind Within.reads fun _ => ?_
  split
  · exact Within.pure
  · refine Within.bind Within.reads fun _ => ?_
    refine Within.bind Within.require fun _ => ?_
    refine Within.bind (Within.writes fun _ => rules.apart rfl) fun _ => ?_
    refine Within.bind (rules.rowRules.incrementRecordRevision _ _) fun _ => ?_
    refine Within.bind (Within.onSome fun _ _ => ?_) fun _ => Within.pure
    exact rules.rowRules.insertAuditDraft _ _

theorem verifyEmbeddingProfile (profile : EmbeddingProfile) :
    Within relation (LocalHold.verifyEmbeddingProfile profile) := by
  refine Within.bind Within.reads fun recorded => ?_
  cases recorded with
  | some existing => exact Within.require
  | none =>
      refine Within.bind Within.reads fun _ => ?_
      refine Within.bind Within.require fun _ => ?_
      exact Within.bind Within.require fun _ => Within.writes fun _ => rules.apart rfl

theorem reassignMemory (target : ContextId) (targetKey fromScope principal : String)
    (audit : Option AuditDraft) (now : Instant) (id : MemoryId) :
    Within relation
      (LocalHold.reassignMemory target targetKey fromScope principal audit now id) := by
  refine Within.bind (rules.rowRules.updateMemory fun _ => .of_eq rfl rfl) fun _ => ?_
  refine Within.bind (rules.rowRules.incrementRecordRevision _ _) fun _ => ?_
  refine Within.bind (rules.setMetadataScope _ _ _) fun _ => ?_
  refine Within.bind Within.reads fun _ => ?_
  refine Within.bind (rules.rowRules.deleteMembershipRows _) fun _ => ?_
  refine Within.bind (rules.rowRules.insertMembershipRows _ _ _) fun _ => ?_
  refine Within.bind (rules.rowRules.insertContextAudit _ _ _ _) fun _ => ?_
  exact Within.onSome fun _ _ => rules.rowRules.insertAuditDraft _ _

variable [Host]

theorem migrateMetadata (dryRun : Bool) (audit : Option AuditDraft) (now : Instant) :
    Within relation (LocalHold.migrateMetadata dryRun audit now) := by
  refine Within.bind Within.reads fun _ => ?_
  refine Within.bind Within.reads fun _ => ?_
  split
  · exact Within.pure
  · refine Within.bind (Within.mapM fun _ _ => ?_) fun _ => Within.pure
    exact rules.insertMigratedMetadata _ _ _

theorem applyReassignScope (newId : ContextId) (fromScope toScope : String)
    (origin : Option String) (principal : String) (audit : Option AuditDraft) (now : Instant) :
    Within relation
      (LocalHold.applyReassignScope newId fromScope toScope origin principal audit now) := by
  refine Within.bind Within.reads fun _ => ?_
  split
  · exact Within.pure
  · refine Within.bind (rules.rowRules.of_leavesMemories
      (leavesMemories_resolveOrCreatePrivateLegacyContext _ _ _ _)) fun _ => ?_
    refine Within.bind Within.reads fun _ => ?_
    refine Within.bind Within.expect fun _ => ?_
    exact Within.bind (Within.forM fun _ _ => rules.reassignMemory _ _ _ _ _ _ _)
      fun _ => Within.pure

/-! ### Updates with metadata and contexts -/

theorem applyMetadataPatch (id : MemoryId) (patch : MetadataPatch)
    (fallbackScope : Option String) (principal : String) (now : Instant) :
    Within relation (LocalHold.applyMetadataPatch id patch fallbackScope principal now) :=
  Within.bind Within.reads fun _ => rules.upsertMetadata _ _

theorem applyPatchAfterUpdate (id : MemoryId) (update : MemoryUpdate)
    (patch : Option MetadataPatch) (existing : Memory) (principal : String)
    (revisionAt : Instant) :
    Within relation
      (LocalHold.applyPatchAfterUpdate id update patch existing principal revisionAt) := by
  refine Within.bind (Within.onSome fun _ _ => ?_) fun _ => Within.onSome fun _ _ => ?_
  · exact rules.applyMetadataPatch _ _ _ _ _
  · exact rules.rowRules.incrementRecordRevision _ _

theorem updateAuthorizedWithMetadata (id : MemoryId) (update : MemoryUpdate)
    (patch : Option MetadataPatch) (principal : String) (audit : Option AuditDraft)
    (now : Instant) :
    Within relation
      (LocalHold.updateAuthorizedWithMetadata id update patch principal audit now) := by
  refine Within.bind Within.reads fun found => ?_
  cases found with
  | none => exact Within.pure
  | some existing =>
      dsimp only
      split
      · refine Within.bind (readsOnly_validateCompatibilityCacheUpdate _ _ _).within fun _ => ?_
        refine Within.bind (rules.rowRules.applyUpdateInner _ _ _) fun outcome => ?_
        split
        · refine Within.bind (rules.applyPatchAfterUpdate _ _ _ _ _ _) fun _ => ?_
          refine Within.bind (Within.onSome fun _ _ => ?_) fun _ => Within.pure
          exact rules.rowRules.insertAuditDraft _ _
        · exact Within.pure
      · exact Within.pure

theorem replaceMemoryContextsTx (id : MemoryId) (contextIds : List ContextId)
    (principal scope : String) (audit : ContextAuditDraft) (now : Instant) :
    Within relation
      (LocalHold.replaceMemoryContextsTx id contextIds principal scope audit now) := by
  refine Within.bind Within.reads fun _ => ?_
  refine Within.bind (rules.rowRules.deleteMembershipRows _) fun _ => ?_
  refine Within.bind (rules.rowRules.insertMemoryContexts _ _ _ _ _ _ _) fun _ => ?_
  refine Within.bind (rules.setMetadataScope _ _ _) fun _ => ?_
  exact Within.bind (rules.rowRules.updateMemory fun _ => .of_eq rfl rfl) fun _ => Within.pure

theorem replaceMemoryContexts (id : MemoryId) (contextIds : List ContextId)
    (principal : String) (audit : ContextAuditDraft) (now : Instant) :
    Within relation (LocalHold.replaceMemoryContexts id contextIds principal audit now) := by
  refine Within.bind (readsOnly_validateAuditActor _ _).within fun _ => ?_
  refine Within.bind Within.require fun _ => ?_
  refine Within.bind Within.reads fun existing => ?_
  split
  · exact Within.pure
  · split
    · refine Within.bind Within.reads fun _ => ?_
      refine Within.bind (readsOnly_requireUsableContexts _ _ _).within fun _ => ?_
      refine Within.bind (rules.rowRules.deleteMembershipRows id) fun _ => ?_
      refine Within.bind (rules.rowRules.insertMembershipRows _ _ _) fun _ => ?_
      refine Within.bind (readsOnly_primaryContextKey _).within fun _ => ?_
      refine Within.bind (rules.setMetadataScope _ _ _) fun _ => ?_
      refine Within.bind (rules.rowRules.updateMemory fun _ => .of_eq rfl rfl) fun _ => ?_
      exact Within.bind (rules.rowRules.insertContextAudit _ _ _ _) fun _ => Within.pure
    · exact Within.pure

theorem replaceContextsForUpdate (id : MemoryId) (update : MemoryUpdate)
    (patch : Option MetadataPatch) (contextIds : List ContextId) (principal : String)
    (contextAudit : Option ContextAuditDraft) (revisionAt : Instant) :
    Within relation (LocalHold.replaceContextsForUpdate id update patch contextIds principal
      contextAudit revisionAt) := by
  refine Within.bind Within.expect fun _ => ?_
  refine Within.bind Within.expect fun _ => ?_
  exact Within.bind Within.require fun _ => rules.replaceMemoryContextsTx _ _ _ _ _ _

theorem updateAuthorizedWithMetadataContexts (id : MemoryId) (update : MemoryUpdate)
    (patch : Option MetadataPatch) (contextIds : Option (List ContextId)) (principal : String)
    (audit : AuditDraft) (contextAudit : Option ContextAuditDraft) (now : Instant) :
    Within relation (LocalHold.updateAuthorizedWithMetadataContexts id update patch contextIds
      principal audit contextAudit now) := by
  refine Within.bind Within.require fun _ => ?_
  refine Within.bind Within.reads fun found => ?_
  cases found with
  | none => exact Within.pure
  | some existing =>
      dsimp only
      split
      · refine Within.bind (Within.onSome fun _ _ =>
          (readsOnly_validateCompatibilityCacheUpdate _ _ _).within) fun _ => ?_
        refine Within.bind (rules.rowRules.applyUpdateInner _ _ _) fun outcome => ?_
        split
        · refine Within.bind (rules.applyPatchAfterUpdate _ _ _ _ _ _) fun _ => ?_
          refine Within.bind (Within.onSome fun _ _ => ?_) fun _ => ?_
          · exact rules.replaceContextsForUpdate _ _ _ _ _ _ _
          · exact Within.bind (rules.rowRules.insertAuditDraft _ _) fun _ => Within.pure
        · exact Within.pure
      · exact Within.pure

theorem replaceContextsOptimistically (id : MemoryId) (contextIds : List ContextId)
    (principal : String) (contextAudit : Option ContextAuditDraft) (revisionAt : Instant) :
    Within relation (LocalHold.replaceContextsOptimistically id contextIds principal
      contextAudit revisionAt) := by
  refine Within.bind Within.expect fun _ => ?_
  refine Within.bind (readsOnly_optimisticCompatibilityScope _).within fun _ => ?_
  refine Within.bind Within.reads fun _ => ?_
  refine Within.bind (rules.upsertMetadata _ _) fun _ => ?_
  exact rules.replaceMemoryContextsTx _ _ _ _ _ _

theorem updateAuthorizedIfUnmodified (dimensions : Nat)
    (activeProfile : Option EmbeddingProfile) (id : MemoryId) (expectedRevision : Int)
    (update : MemoryUpdate) (patch : Option MetadataPatch)
    (contextIds : Option (List ContextId)) (embedding : Option Embedding) (principal : String)
    (audit : AuditDraft) (contextAudit : Option ContextAuditDraft) (now : Instant) :
    Within relation (LocalHold.updateAuthorizedIfUnmodified dimensions activeProfile id
      expectedRevision update patch contextIds embedding principal audit contextAudit now) := by
  refine Within.bind Within.require fun _ => ?_
  refine Within.bind (Within.onSome fun _ _ => (readsOnly_validateEmbeddingVector _ _).within)
    fun _ => ?_
  refine Within.bind Within.require fun _ => ?_
  refine Within.bind Within.reads fun found => ?_
  cases found with
  | none => exact Within.pure
  | some existing =>
      dsimp only
      split
      · refine Within.bind Within.require fun _ => ?_
        refine Within.bind (Within.onSome fun _ _ =>
          (readsOnly_validateCompatibilityCacheUpdate _ _ _).within) fun _ => ?_
        refine Within.bind (rules.rowRules.applyUpdateInner _ _ _) fun _ => ?_
        refine Within.bind (Within.onSome fun _ _ => ?_) fun _ => ?_
        · exact rules.rowRules.storeReplacementEmbedding _ _ _ _
        refine Within.bind (Within.onSome fun _ _ => ?_) fun _ => ?_
        · exact rules.applyMetadataPatch _ _ _ _ _
        refine Within.bind (Within.onSome fun _ _ => ?_) fun _ => ?_
        · exact rules.rowRules.incrementRecordRevision _ _
        refine Within.bind (Within.onSome fun _ _ => ?_) fun _ => ?_
        · exact rules.replaceContextsOptimistically _ _ _ _ _
        exact Within.bind (rules.rowRules.insertAuditDraft _ _) fun _ => Within.pure
      · exact Within.pure

end MemoryRules

/-! ## Stored and deleted memories -/

/-- Every memory stays, and no lease is taken from one. -/
def LeasesGrow (before after : Db) : Prop :=
  ∀ id old, before.memories.find? id = some old →
    ∃ new, after.memories.find? id = some new ∧ LeaseKept old new

/-- No memory is new, and no lease is taken from one that stays. -/
def LeasesShrink (before after : Db) : Prop :=
  ∀ id new, after.memories.find? id = some new →
    ∃ old, before.memories.find? id = some old ∧ LeaseKept old new

/-- No lease is taken from a memory that stays. -/
def LeasesStay (before after : Db) : Prop :=
  ∀ id old new, before.memories.find? id = some old → after.memories.find? id = some new →
    LeaseKept old new

instance : Std.Refl LeasesGrow :=
  ⟨fun _ _ old found => ⟨old, found, .refl old⟩⟩

instance : IsTrans Db LeasesGrow :=
  ⟨fun _ _ _ early late id old found => by
    obtain ⟨middle, middleFound, kept⟩ := early id old found
    obtain ⟨new, newFound, keptAgain⟩ := late id middle middleFound
    exact ⟨new, newFound, kept.trans keptAgain⟩⟩

instance : Std.Refl LeasesShrink :=
  ⟨fun _ _ new found => ⟨new, found, .refl new⟩⟩

instance : IsTrans Db LeasesShrink :=
  ⟨fun _ _ _ early late id new found => by
    obtain ⟨middle, middleFound, keptAgain⟩ := late id new found
    obtain ⟨old, oldFound, kept⟩ := early id middle middleFound
    exact ⟨old, oldFound, kept.trans keptAgain⟩⟩

theorem LeasesGrow.stay {before after : Db} (grow : LeasesGrow before after) :
    LeasesStay before after := by
  intro id old new oldFound newFound
  obtain ⟨other, otherFound, kept⟩ := grow id old oldFound
  rw [newFound] at otherFound
  cases otherFound
  exact kept

theorem LeasesShrink.stay {before after : Db} (shrink : LeasesShrink before after) :
    LeasesStay before after := by
  intro id old new oldFound newFound
  obtain ⟨other, otherFound, kept⟩ := shrink id new newFound
  rw [oldFound] at otherFound
  cases otherFound
  exact kept

theorem LeaseKept.ite {change : MemoryRow → MemoryRow} (keeps : ∀ row, LeaseKept row (change row))
    (hit : MemoryRow → Bool) (row : MemoryRow) :
    LeaseKept row (if hit row then change row else row) := by
  split
  · exact keeps row
  · exact .refl row

theorem memoryRules_grow : MemoryRules LeasesGrow where
  apart {db next} memories id old found := ⟨old, by rw [memories]; exact found, .refl old⟩
  rewrites {db hit change keepsKey} keeps id old found := by
    refine ⟨_, ?_, LeaseKept.ite keeps hit old⟩
    rw [Table.find?_updateWhere, found]
    rfl

theorem memoryRules_shrink : MemoryRules LeasesShrink where
  apart {db next} memories id new found := ⟨new, by rw [← memories]; exact found, .refl new⟩
  rewrites {db hit change keepsKey} keeps id new found := by
    rw [Table.find?_updateWhere] at found
    obtain ⟨old, oldFound, rfl⟩ := Option.map_eq_some_iff.mp found
    exact ⟨old, oldFound, LeaseKept.ite keeps hit old⟩

theorem leasesGrow_insertMemoryRow (row : MemoryRow) :
    Within LeasesGrow (insertMemoryRow row) := by
  refine Within.reads_expect_writes fun db memories inserted id old found => ?_
  have other : id ≠ row.id := by
    rintro rfl
    have absent := (Table.insert?_eq_some_iff.mp inserted).1
    rw [Table.contains, found] at absent
    cases absent
  exact ⟨old, by rw [Table.find?_insert? inserted, if_neg other, found], .refl old⟩

theorem leasesGrow_insertPrepared (dimensions : Nat) (item : MemoryWithEmbedding) :
    Within LeasesGrow (insertPrepared dimensions item) := by
  refine Within.bind (leasesGrow_insertMemoryRow _) fun _ => ?_
  refine Within.bind (Within.onSome fun _ _ => ?_) fun _ => ?_
  · exact memoryRules_grow.rowRules.vectorUpsert _ _ _
  · exact memoryRules_grow.rowRules.insertEntities _ _

theorem leasesGrow_insertPreparedWithSupersession (dimensions : Nat) (item : MemoryWithEmbedding)
    (supersedes : Option MemoryId) (audit : Option AuditDraft) :
    Within LeasesGrow (insertPreparedWithSupersession dimensions item supersedes audit) := by
  refine Within.bind (Within.onSome fun _ _ => (readsOnly_validateSupersededExists _).within)
    fun _ => ?_
  refine Within.bind (leasesGrow_insertPrepared _ _) fun _ => ?_
  refine Within.bind (Within.onSome fun _ _ => ?_) fun _ => Within.onSome fun _ _ => ?_
  · exact Within.bind (memoryRules_grow.rowRules.markSuperseded _ _) fun _ => Within.pure
  · exact memoryRules_grow.rowRules.insertAuditDraft _ _

theorem leasesGrow_storeItemWithMetadata (dimensions : Nat) (item : MemoryWithEmbedding)
    (supersedes : Option MemoryId) (metadata : MemoryMetadata) (audit : Option AuditDraft)
    (now : Instant) :
    Within LeasesGrow (storeItemWithMetadata dimensions item supersedes metadata audit now) :=
  Within.bind (leasesGrow_insertPreparedWithSupersession _ _ _ _) fun _ =>
    memoryRules_grow.upsertMetadata _ _

theorem leasesGrow_store (dimensions : Nat) (item : MemoryWithEmbedding)
    (audit : Option AuditDraft) : Within LeasesGrow (store dimensions item audit) := by
  refine Within.bind (leasesGrow_insertPrepared _ _) fun _ => ?_
  refine Within.bind (Within.onSome fun _ _ => ?_) fun _ => Within.pure
  exact memoryRules_grow.rowRules.insertAuditDraft _ _

theorem leasesGrow_storeBatch (dimensions : Nat) (items : List MemoryWithEmbedding)
    (audits : Option (List AuditDraft)) :
    Within LeasesGrow (storeBatch dimensions items audits) := by
  refine Within.bind (Within.onSome fun _ _ => Within.require) fun _ => ?_
  refine Within.bind (Within.forM fun entry _ => ?_) fun _ => Within.pure
  refine Within.bind (leasesGrow_insertPrepared _ _) fun _ => ?_
  exact Within.onSome fun _ _ => memoryRules_grow.rowRules.insertAuditDraft _ _

theorem leasesGrow_storeBatchWithSupersession (dimensions : Nat)
    (items : List MemoryWithEmbedding) (supersedes : List (Option MemoryId))
    (audits : Option (List AuditDraft)) :
    Within LeasesGrow (storeBatchWithSupersession dimensions items supersedes audits) := by
  refine Within.bind Within.require fun _ => ?_
  refine Within.bind (Within.onSome fun _ _ => Within.require) fun _ => ?_
  refine Within.bind (Within.forM fun entry _ => ?_) fun _ => Within.pure
  exact leasesGrow_insertPreparedWithSupersession _ _ _ _

theorem leasesGrow_storeBatchWithMetadata (dimensions : Nat) (items : List MemoryWithEmbedding)
    (supersedes : List (Option MemoryId)) (metadata : List MemoryMetadata)
    (audits : Option (List AuditDraft)) (now : Instant) :
    Within LeasesGrow
      (storeBatchWithMetadata dimensions items supersedes metadata audits now) := by
  refine Within.bind Within.require fun _ => ?_
  refine Within.bind Within.require fun _ => ?_
  refine Within.bind (Within.onSome fun _ _ => Within.require) fun _ => ?_
  refine Within.bind (Within.forM fun _ _ => Within.require) fun _ => ?_
  refine Within.bind (Within.forM fun entry _ => ?_) fun _ => Within.pure
  exact leasesGrow_storeItemWithMetadata _ _ _ _ _ _

theorem leasesShrink_entombMemory (memory : Memory) (deletedAt : Instant)
    (deletedBy : Option String) :
    Within LeasesShrink (entombMemory memory deletedAt deletedBy) := by
  refine Within.bind (Within.writes fun _ => memoryRules_shrink.apart rfl) fun _ => ?_
  refine Within.bind (readsOnly_memoryExists memory.id).within fun present => ?_
  cases present with
  | false => exact Within.pure
  | true =>
      refine Within.bind (Within.writes fun db id new found => ?_) fun _ => Within.pure
      rw [Db.find?_dropMemory] at found
      split at found
      · cases found
      · obtain ⟨old, oldFound, rfl⟩ := Option.map_eq_some_iff.mp found
        refine ⟨old, oldFound, ?_⟩
        split
        · exact .of_eq rfl rfl
        · exact .refl old

variable [Host]

theorem leasesGrow_storeGovernedItem (dimensions : Nat) (request : GovernedItem)
    (principal : String) (now : Instant) :
    Within LeasesGrow (storeGovernedItem dimensions request principal now) :=
  Within.bind (leasesGrow_storeItemWithMetadata _ _ _ _ _ _) fun _ =>
    memoryRules_grow.rowRules.insertMemoryContexts _ _ _ _ _ _ _

theorem leasesGrow_storeBatchWithMetadataContexts (dimensions : Nat)
    (items : List MemoryWithEmbedding) (supersedes : List (Option MemoryId))
    (metadata : List MemoryMetadata) (contextIds : List (List ContextId))
    (audits : List AuditDraft) (contextAudits : List ContextAuditDraft) (now : Instant) :
    Within LeasesGrow (storeBatchWithMetadataContexts dimensions items supersedes metadata
      contextIds audits contextAudits now) := by
  refine Within.bind Within.require fun _ => ?_
  refine Within.bind (Within.mapM fun _ _ => (readsOnly_validateGovernedItem _).within)
    fun _ => ?_
  refine Within.bind (Within.forM fun entry _ => ?_) fun _ => Within.pure
  exact leasesGrow_storeGovernedItem _ _ _ _

/-! ## Every command -/

omit [Host] in
theorem stay_discard_of_grow {α : Type} {body : StoreM α} (inner : Within LeasesGrow body) :
    Within LeasesStay (StoreCommand.discard body) :=
  within_discard (inner.mono fun _ _ => LeasesGrow.stay)

omit [Host] in
theorem stay_discard_of_shrink {α : Type} {body : StoreM α} (inner : Within LeasesShrink body) :
    Within LeasesStay (StoreCommand.discard body) :=
  within_discard (inner.mono fun _ _ => LeasesShrink.stay)

omit [Host] in
theorem stay_of_grow {body : StoreM Unit} (inner : Within LeasesGrow body) :
    Within LeasesStay body :=
  inner.mono fun _ _ => LeasesGrow.stay

omit [Host] in
theorem stay_of_leavesMemories {body : StoreM Unit} (inner : LeavesMemories body) :
    Within LeasesStay body :=
  stay_of_grow (memoryRules_grow.rowRules.of_leavesMemories inner)

omit [Host] in
/-- The commands that take or give up leases as their purpose. -/
def StoreCommand.movesLeases : StoreCommand → Bool
  | claimForReembed _ _ _ => true
  | releaseEmbeddingClaim _ _ _ => true
  | reindexEmbeddings _ => true
  | _ => false

/-- Every other command leaves the leases of the memories that stay. -/
theorem leasesStay_body (handle : StoreHandle) (now : Instant) {command : StoreCommand}
    (other : command.movesLeases = false) :
    Within LeasesStay (command.body handle now) := by
  have grow := memoryRules_grow
  have shrink := memoryRules_shrink.rowRules
  cases command with
  | store item audit => exact stay_discard_of_grow (leasesGrow_store _ _ _)
  | storeWithSupersession item supersedes audit =>
      exact stay_discard_of_grow (Within.bind (leasesGrow_insertPreparedWithSupersession _ _ _ _)
        fun _ => Within.pure)
  | storeWithMetadata item supersedes metadata audit =>
      refine stay_discard_of_grow (Within.bind Within.require fun _ => ?_)
      exact Within.bind (leasesGrow_storeItemWithMetadata _ _ _ _ _ _) fun _ => Within.pure
  | storeWithMetadataContexts request =>
      refine stay_discard_of_grow ?_
      refine Within.bind (readsOnly_validateGovernedItem request).within fun _ => ?_
      exact Within.bind (leasesGrow_storeGovernedItem _ _ _ _) fun _ => Within.pure
  | storeBatch items audits => exact stay_discard_of_grow (leasesGrow_storeBatch _ _ _)
  | storeBatchWithSupersession items supersedes audits =>
      exact stay_discard_of_grow (leasesGrow_storeBatchWithSupersession _ _ _ _)
  | storeBatchWithMetadata items supersedes metadata audits =>
      exact stay_discard_of_grow (leasesGrow_storeBatchWithMetadata _ _ _ _ _ _)
  | storeBatchWithMetadataContexts items supersedes metadata contextIds audits contextAudits =>
      exact stay_discard_of_grow (leasesGrow_storeBatchWithMetadataContexts _ _ _ _ _ _ _ _)
  | update id changes => exact stay_discard_of_grow (grow.rowRules.applyUpdate _ _ _)
  | updateAuthorized id changes principal audit =>
      exact stay_discard_of_grow (grow.rowRules.updateAuthorized _ _ _ _ _)
  | updateAuthorizedWithMetadata id changes patch principal audit =>
      exact stay_discard_of_grow (grow.updateAuthorizedWithMetadata _ _ _ _ _ _)
  | updateAuthorizedWithMetadataContexts id changes patch contextIds principal audit
      contextAudit =>
      exact stay_discard_of_grow (grow.updateAuthorizedWithMetadataContexts _ _ _ _ _ _ _ _)
  | updateIfUnmodified id expectedRevision changes patch contextIds embedding principal audit
      contextAudit =>
      exact stay_discard_of_grow (grow.updateAuthorizedIfUnmodified _ _ _ _ _ _ _ _ _ _ _ _)
  | bulkUpdate ids changes principal audit =>
      exact stay_discard_of_grow (grow.rowRules.bulkUpdateIds _ _ _ _ _)
  | delete id => exact stay_discard_of_shrink (within_applyDelete leasesShrink_entombMemory _ _)
  | deleteAuthorized id principal audit =>
      exact stay_discard_of_shrink
        (within_deleteAuthorized leasesShrink_entombMemory shrink.insertAuditDraft _ _ _ _)
  | deleteIfUnmodified id expectedRevision principal audit =>
      exact stay_discard_of_shrink (within_deleteAuthorizedIfUnmodified leasesShrink_entombMemory
        shrink.insertAuditDraft _ _ _ _ _)
  | bulkDelete ids principal audit =>
      exact stay_discard_of_shrink
        (within_bulkDeleteIds leasesShrink_entombMemory shrink.insertAuditDraft _ _ _ _)
  | evictExpired scope audit =>
      exact stay_discard_of_shrink
        (within_evictExpired leasesShrink_entombMemory shrink.insertAuditDraft _ _ _)
  | markSupersededBy id supersededBy =>
      exact stay_discard_of_grow (grow.rowRules.markSuperseded _ _)
  | markSupersededByAuthorized id supersededBy principal audit =>
      exact stay_discard_of_grow (grow.rowRules.markSupersededByAuthorized _ _ _ _)
  | markSupersededIfUnchanged member representative principal audit =>
      exact stay_discard_of_grow (grow.rowRules.markSupersededIfUnchanged _ _ _ _)
  | recordSearchImpression ids => exact stay_of_grow (grow.rowRules.recordSearchImpression _ _)
  | recordMemoryUse decayMass ids principal eventWeight =>
      exact stay_discard_of_grow (grow.rowRules.recordMemoryUse _ _ _ _ _)
  | writeAuditEntry id audit => exact stay_of_grow (grow.rowRules.insertAuditDraft _ _)
  | claimForReembed principal limit token => cases other
  | releaseEmbeddingClaim id expectedRevision token => cases other
  | setEmbedding id embedding expectedRevision =>
      exact stay_of_grow (grow.rowRules.setEmbedding _ _ _ _ _)
  | verifyEmbeddingProfile profile => exact stay_of_grow (grow.verifyEmbeddingProfile _)
  | reindexEmbeddings profile => cases other
  | upsertMetadata metadata audit => exact stay_of_grow (grow.upsertMetadataAudited _ _ _)
  | migrateMetadata dryRun audit => exact stay_discard_of_grow (grow.migrateMetadata _ _ _)
  | registerScope newId scope principal =>
      exact stay_of_leavesMemories (leavesMemories_registerLegacyScopeContext _ _ _ _)
  | reassignScope newId fromScope toScope origin principal audit =>
      exact stay_discard_of_grow (grow.applyReassignScope _ _ _ _ _ _ _)
  | replaceMemoryContexts id contextIds principal audit =>
      exact stay_discard_of_grow (grow.replaceMemoryContexts _ _ _ _ _)
  | createContext draft audit =>
      exact stay_discard_of_grow
        (grow.rowRules.of_leavesMemories (leavesMemories_createContext _ _ _))
  | setContextParent id parentId principal audit =>
      exact stay_of_leavesMemories (leavesMemories_setContextParent _ _ _ _ _)
  | setContextLifecycle id lifecycle principal audit =>
      exact stay_of_leavesMemories (leavesMemories_setContextLifecycle _ _ _ _ _)
  | grantContextUse id grantee principal audit =>
      exact stay_of_leavesMemories (leavesMemories_grantContextUse _ _ _ _ _)
  | revokeContextUse id grantee principal audit =>
      exact stay_of_leavesMemories (leavesMemories_revokeContextUse _ _ _ _ _)
  | replaceContextGrants id grantees principal audit =>
      exact stay_of_leavesMemories (leavesMemories_replaceContextGrants _ _ _ _ _)
  | updateContextDefinition id patch principal audit =>
      exact stay_of_leavesMemories (leavesMemories_updateContextDefinition _ _ _ _ _)
  | upsertContextKind kind displayName enabled principal audit =>
      exact stay_of_leavesMemories (leavesMemories_upsertContextKind _ _ _ _ _ _)
  | upsertContextKindPolicy layer policyPrincipal kind policy principal audit =>
      exact stay_of_leavesMemories (leavesMemories_upsertContextKindPolicy _ _ _ _ _ _ _)
  | upsertContextAnchorPolicy anchorId policyPrincipal policy principal audit =>
      exact stay_of_leavesMemories (leavesMemories_upsertContextAnchorPolicy _ _ _ _ _ _)
  | rollbackUnreferencedLegacyContext id principal =>
      exact stay_discard_of_grow (grow.rowRules.of_leavesMemories
        (leavesMemories_rollbackUnreferencedLegacyContext _ _))

/-- A step by another command leaves the leases of the memories that stay. -/
theorem storeStep_leasesStay {db next : Db} {call : StoreCall}
    (other : call.command.movesLeases = false) (stepEq : storeStep db call = some next) :
    LeasesStay db next := by
  rcases (storeStep_ran stepEq).2 with rfl | ran
  · exact (Std.Refl.refl next : LeasesGrow next next).stay
  · exact leasesStay_body call.handle call.now other ran

end LocalHold
