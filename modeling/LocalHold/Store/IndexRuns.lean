import LocalHold.Store.IndexCommands

/-!
# The vector index along runs of the store

The remaining commands, and the bound on what one step of the store does to the
index.
-/

namespace LocalHold

open Relational Transition Transition.Txn

variable {written : MemoryId → EmbeddingView → Prop}

/-! ## Profiles -/

theorem Db.vector_eq_none_of_unmapped {db : Db} (empty : db.embeddingMap.rows = [])
    {id : MemoryId} {view : EmbeddingView} (viewEq : db.embeddingView id = some view) : view.vector = none := by
  have unmapped : db.embeddingMap.contains id = false := by
    rw [Table.contains_eq_false_iff]
    intro mapping mappingMem
    rw [Table.mem_def, empty] at mappingMem
    cases mappingMem
  simp only [Db.embeddingView, Option.map_eq_some_iff] at viewEq
  obtain ⟨columns, _, rfl⟩ := viewEq
  simp [Db.vectorOf_eq_none unmapped]

/-- A change that leaves no vector sustains the index. -/
theorem Evolves.of_unflagged {id : MemoryId} {before after : Db}
    (columns : ∀ row, after.memories.find? id = some row → ∃ old,
      before.memories.find? id = some old ∧ row.content = old.content ∧
        row.embeddingRevision = old.embeddingRevision)
    (empty : after.embeddingMap.rows = []) : Evolves written id before after where
  kept old new oldView newView := by
    have noVector := Db.vector_eq_none_of_unmapped empty newView
    simp only [Db.embeddingView, Db.indexed, Option.map_map, Option.map_eq_some_iff] at newView
    obtain ⟨row, found, rfl⟩ := newView
    obtain ⟨oldRow, oldFound, content, revision⟩ := columns row found
    simp only [Db.embeddingView, Db.indexed, oldFound, Option.map_some,
      Option.some.injEq] at oldView
    subst oldView
    exact ⟨le_of_eq revision.symm, Or.inl content, Or.inl noVector⟩
  fresh new oldView newView := by
    exact Or.inl (Db.vector_eq_none_of_unmapped empty newView)

theorem withinSustains_verifyEmbeddingProfile (profile : EmbeddingProfile) :
    Within (Sustains written) (verifyEmbeddingProfile profile) := by
  intro db value next ran indexOk
  have recorded := of_reads_bind ran
  cases existing : db.embeddingProfile with
  | some current =>
      simp only [existing] at recorded
      obtain ⟨_, stateEq⟩ := require_eq_ok.mp recorded
      cases stateEq
      exact ⟨indexOk, fun _ => Evolves.of_eq rfl⟩
  | none =>
      simp only [existing] at recorded
      have counted := of_reads_bind recorded
      obtain ⟨noVectors, unstamped⟩ := of_require_bind counted
      obtain ⟨_, stamped⟩ := of_require_bind unstamped
      cases writes_eq_ok.mp stamped
      have empty : db.embeddingMap.rows = [] := by simpa using noVectors
      have mapOk : MapOk { db with embeddingProfile := some profile } :=
        ⟨indexOk.mapped, indexOk.named, indexOk.unshared⟩
      have indexOkAfter : IndexOk { db with embeddingProfile := some profile } :=
        ⟨mapOk, indexOk.flagged⟩
      refine ⟨indexOkAfter, fun id => Evolves.of_unflagged (fun row found => ?_) empty⟩
      exact ⟨row, found, rfl, rfl⟩

theorem MemoryRow.withoutEmbedding_id (row : MemoryRow) : row.withoutEmbedding.id = row.id :=
  rfl

theorem withinSustains_reindexEmbeddings (profile : EmbeddingProfile) :
    Within (Sustains written) (reindexEmbeddings profile) := by
  intro db value next ran indexOk
  obtain ⟨_, _, clearRan, stampRan⟩ := bind_eq_ok.mp ran
  cases writes_eq_ok.mp clearRan
  obtain ⟨_, stamped⟩ := of_require_bind stampRan
  cases writes_eq_ok.mp stamped
  have cleared : ∀ id row, (db.memories.updateWhere (fun _ => true) MemoryRow.withoutEmbedding
      MemoryRow.withoutEmbedding_id).find? id = some row →
      ∃ old, db.memories.find? id = some old ∧ old.withoutEmbedding = row := by
    intro id row found
    rw [Table.find?_updateWhere] at found
    exact Option.map_eq_some_iff.mp found
  have indexOkAfter : IndexOk { db with
      embeddingMap := Table.empty
      embeddings := Table.empty
      vectorSequence := 0
      vectorDimensions := profile.dimensions
      embeddingProfile := some profile
      memories := db.memories.updateWhere (fun _ => true) MemoryRow.withoutEmbedding
        MemoryRow.withoutEmbedding_id } := by
    refine ⟨⟨?_, ?_, ?_⟩, ?_⟩
    · intro mapping mappingMem
      exact absurd mappingMem (Table.not_mem_empty mapping)
    · intro vector vectorMem
      exact absurd vectorMem (Table.not_mem_empty vector)
    · intro mapping mappingMem
      exact absurd mappingMem (Table.not_mem_empty mapping)
    · intro id row found
      obtain ⟨old, _, rfl⟩ := cleared id row found
      simp [MemoryRow.withoutEmbedding, Table.contains]
  refine ⟨indexOkAfter, fun id => Evolves.of_unflagged (fun row found => ?_) rfl⟩
  obtain ⟨old, oldFound, rfl⟩ := cleared id row found
  exact ⟨old, oldFound, rfl, rfl⟩

/-! ## Commands that leave the index alone -/

theorem keepsIndex_markSupersededByAuthorized (id supersededBy : MemoryId) (principal : String)
    (audit : Option AuditDraft) :
    KeepsIndex (markSupersededByAuthorized id supersededBy principal audit) := by
  refine Within.bind Within.reads fun existing => ?_
  split
  · exact Within.pure
  · split
    · refine Within.bind (keepsIndex_markSuperseded _ _) fun _ => ?_
      refine Within.bind (Within.onSome fun _ _ => ?_) fun _ => Within.pure
      exact keepsIndex_insertAuditDraft _ _
    · exact Within.pure

theorem keepsIndex_markSupersededIfUnchanged (member representative : ConsolidationSnapshot)
    (principal : String) (audit : AuditDraft) :
    KeepsIndex (markSupersededIfUnchanged member representative principal audit) := by
  refine Within.bind Within.require fun _ => ?_
  refine Within.bind Within.require fun _ => ?_
  refine Within.bind Within.reads fun existing => ?_
  split
  · exact Within.pure
  · refine Within.bind Within.reads fun other => ?_
    split
    · exact Within.pure
    · split
      · refine Within.bind Within.reads fun _ => ?_
        refine Within.bind Within.reads fun _ => ?_
        refine Within.bind Within.require fun _ => ?_
        refine Within.bind (keepsIndex_markSuperseded _ _) fun _ => ?_
        refine Within.bind (Within.onSome fun _ _ => ?_) fun _ => Within.pure
        exact keepsIndex_insertAuditDraft _ _
      · exact Within.pure

theorem keepsIndex_recordSearchImpression (ids : List MemoryId) (now : Instant) :
    KeepsIndex (recordSearchImpression ids now) := by
  apply Within.forM
  intro id _
  exact Within.bind (keepsIndex_updateMemoryWhere fun _ => rfl) fun _ => Within.pure

theorem keepsIndex_recordMemoryUse (decayMass : ℚ → Option Instant → Instant → ℚ)
    (ids : List MemoryId) (principal : String) (eventWeight : ℚ) (now : Instant) :
    KeepsIndex (recordMemoryUse decayMass ids principal eventWeight now) := by
  apply Within.foldlM
  intro outcome id _
  refine Within.bind Within.reads fun existing => ?_
  split
  · exact Within.pure
  · split
    · exact Within.pure
    · exact Within.bind (keepsIndex_updateMemoryWhere fun _ => rfl) fun _ => Within.pure

theorem keepsIndex_releaseEmbeddingClaim (id : MemoryId) (expectedRevision : Int)
    (token : String) : KeepsIndex (releaseEmbeddingClaim id expectedRevision token) :=
  keepsIndex_updateMemoryWhere fun _ => rfl

theorem keepsIndex_upsertMetadataAudited (metadata : MemoryMetadata) (audit : Option AuditDraft)
    (now : Instant) : KeepsIndex (upsertMetadataAudited metadata audit now) := by
  refine Within.bind Within.reads fun _ => ?_
  refine Within.bind Within.expect fun _ => ?_
  refine Within.bind Within.reads fun _ => ?_
  refine Within.bind Within.require fun _ => ?_
  refine Within.bind (keepsIndex_upsertMetadata metadata now) fun _ => ?_
  refine Within.bind (keepsIndex_incrementRecordRevision _ _) fun _ => ?_
  exact Within.onSome fun _ _ => keepsIndex_insertAuditDraft _ _

theorem keepsIndex_insertMigratedMetadata (row : PreparedMigrationMetadata)
    (audit : Option AuditDraft) (now : Instant) :
    KeepsIndex (insertMigratedMetadata row audit now) := by
  refine Within.bind Within.reads fun _ => ?_
  split
  · exact Within.pure
  · refine Within.bind Within.reads fun _ => ?_
    refine Within.bind Within.require fun _ => ?_
    refine Within.bind (Within.writes fun _ => rfl) fun _ => ?_
    refine Within.bind (keepsIndex_incrementRecordRevision _ _) fun _ => ?_
    refine Within.bind (Within.onSome fun _ _ => ?_) fun _ => Within.pure
    exact keepsIndex_insertAuditDraft _ _

theorem keepsIndex_reassignMemory (target : ContextId) (targetKey fromScope principal : String)
    (audit : Option AuditDraft) (now : Instant) (id : MemoryId) :
    KeepsIndex (reassignMemory target targetKey fromScope principal audit now id) := by
  refine Within.bind (keepsIndex_updateMemoryWhere fun _ => rfl) fun _ => ?_
  refine Within.bind (keepsIndex_incrementRecordRevision _ _) fun _ => ?_
  refine Within.bind (keepsIndex_setMetadataScope _ _ _) fun _ => ?_
  refine Within.bind Within.reads fun _ => ?_
  refine Within.bind (keepsIndex_deleteMembershipRows _) fun _ => ?_
  refine Within.bind (keepsIndex_insertMembershipRows _ _ _) fun _ => ?_
  refine Within.bind (keepsIndex_insertContextAudit _ _ _ _) fun _ => ?_
  exact Within.onSome fun _ _ => keepsIndex_insertAuditDraft _ _

variable [Host]

theorem keepsIndex_claimForReembed (principal : Option String) (limit : Nat) (token : String)
    (now : Instant) : KeepsIndex (claimForReembed principal limit token now) := by
  refine Within.bind Within.reads fun _ => ?_
  refine Within.bind (Within.writes fun db => ?_) fun _ => Within.pure
  exact Db.indexSide_updateWhere fun _ => rfl

theorem keepsIndex_migrateMetadata (dryRun : Bool) (audit : Option AuditDraft) (now : Instant) :
    KeepsIndex (migrateMetadata dryRun audit now) := by
  refine Within.bind Within.reads fun _ => ?_
  refine Within.bind Within.reads fun _ => ?_
  split
  · exact Within.pure
  · refine Within.bind (Within.mapM fun _ _ => ?_) fun _ => Within.pure
    exact keepsIndex_insertMigratedMetadata _ _ _

theorem keepsIndex_applyReassignScope (newId : ContextId) (fromScope toScope : String)
    (origin : Option String) (principal : String) (audit : Option AuditDraft) (now : Instant) :
    KeepsIndex (applyReassignScope newId fromScope toScope origin principal audit now) := by
  refine Within.bind Within.reads fun _ => ?_
  split
  · exact Within.pure
  · refine Within.bind (keepsIndex_of_leavesMemories
      (leavesMemories_resolveOrCreatePrivateLegacyContext _ _ _ _)) fun _ => ?_
    refine Within.bind Within.reads fun _ => ?_
    refine Within.bind Within.expect fun _ => ?_
    refine Within.bind (Within.forM fun _ _ => ?_) fun _ => Within.pure
    exact keepsIndex_reassignMemory _ _ _ _ _ _ _

/-! ## Commands and steps -/

/-- The vectors a call may leave in the index. -/
def StoreCall.Writes (call : StoreCall) (id : MemoryId) (view : EmbeddingView) : Prop :=
  match call.command with
  | .setEmbedding target embedding expectedRevision =>
      WritesVector target call.handle.activeProfile embedding id view ∧
        view.embeddingRevision = expectedRevision
  | .updateIfUnmodified target _ changes _ _ embedding _ _ _ =>
      WritesReplacement target call.handle.activeProfile changes embedding id view
  | command => WritesItem command.storedItems id view

omit [Host] in
theorem withinSustains_growing {α : Type} {body : StoreM α}
    (inner : Within (Growing written) body) :
    Within (Sustains written) (StoreCommand.discard body) := by
  intro state value next ran
  obtain ⟨_, _, bodyRan, done⟩ := bind_eq_ok.mp ran
  cases pure_eq_ok.mp done
  exact (inner bodyRan).sustains

omit [Host] in
theorem withinSustains_shrinking {α : Type} {body : StoreM α} (inner : Within Shrinking body) :
    Within (Sustains written) (StoreCommand.discard body) := by
  intro state value next ran
  obtain ⟨_, _, bodyRan, done⟩ := bind_eq_ok.mp ran
  cases pure_eq_ok.mp done
  exact (inner bodyRan).sustains

omit [Host] in
theorem withinSustains_of_keepsIndex {α : Type} {body : StoreM α} (inner : KeepsIndex body) :
    Within (Sustains written) body :=
  (withinGrowing_of_keepsIndex inner).mono fun _ _ growing => growing.sustains

omit [Host] in
theorem withinSustains_of_leavesMemories {α : Type} {body : StoreM α}
    (inner : LeavesMemories body) : Within (Sustains written) body :=
  withinSustains_of_keepsIndex (keepsIndex_of_leavesMemories inner)

omit [Host] in
theorem withinSustains_keepsIndex {α : Type} {body : StoreM α} (inner : KeepsIndex body) :
    Within (Sustains written) (StoreCommand.discard body) :=
  withinSustains_growing (withinGrowing_of_keepsIndex inner)

/-- Every command sustains the index, up to the vectors it is given. -/
theorem withinSustains_body (call : StoreCall) :
    Within (Sustains call.Writes) (call.command.body call.handle call.now) := by
  obtain ⟨handle, now, command⟩ := call
  cases command with
  | store item audit => exact withinSustains_growing (withinGrowing_store _ _ _)
  | storeWithSupersession item supersedes audit =>
      exact withinSustains_growing (withinGrowing_storeWithSupersession _ _ _ _)
  | storeWithMetadata item supersedes metadata audit =>
      exact withinSustains_growing (withinGrowing_storeWithMetadata _ _ _ _ _ _)
  | storeWithMetadataContexts request =>
      exact withinSustains_growing (withinGrowing_storeWithMetadataContexts _ _ _)
  | storeBatch items audits => exact withinSustains_growing (withinGrowing_storeBatch _ _ _)
  | storeBatchWithSupersession items supersedes audits =>
      exact withinSustains_growing (withinGrowing_storeBatchWithSupersession _ _ _ _)
  | storeBatchWithMetadata items supersedes metadata audits =>
      exact withinSustains_growing (withinGrowing_storeBatchWithMetadata _ _ _ _ _ _)
  | storeBatchWithMetadataContexts items supersedes metadata contextIds audits contextAudits =>
      exact withinSustains_growing
        (withinGrowing_storeBatchWithMetadataContexts _ _ _ _ _ _ _ _)
  | update id changes => exact withinSustains_growing (withinGrowing_applyUpdate _ _ _)
  | updateAuthorized id changes principal audit =>
      exact withinSustains_growing (withinGrowing_updateAuthorized _ _ _ _ _)
  | updateAuthorizedWithMetadata id changes patch principal audit =>
      exact withinSustains_growing (withinGrowing_updateAuthorizedWithMetadata _ _ _ _ _ _)
  | updateAuthorizedWithMetadataContexts id changes patch contextIds principal audit
      contextAudit =>
      exact withinSustains_growing
        (withinGrowing_updateAuthorizedWithMetadataContexts _ _ _ _ _ _ _ _)
  | updateIfUnmodified id expectedRevision changes patch contextIds embedding principal audit
      contextAudit =>
      exact withinSustains_growing
        (withinGrowing_updateAuthorizedIfUnmodified _ _ _ _ _ _ _ _ _ _ _ _)
  | bulkUpdate ids changes principal audit =>
      exact withinSustains_growing (withinGrowing_bulkUpdateIds _ _ _ _ _)
  | delete id => exact withinSustains_shrinking (within_applyDelete withinShrinking_entombMemory _ _)
  | deleteAuthorized id principal audit =>
      exact withinSustains_shrinking (within_deleteAuthorized withinShrinking_entombMemory withinShrinking_insertAuditDraft _ _ _ _)
  | deleteIfUnmodified id expectedRevision principal audit =>
      exact withinSustains_shrinking (within_deleteAuthorizedIfUnmodified withinShrinking_entombMemory withinShrinking_insertAuditDraft _ _ _ _ _)
  | bulkDelete ids principal audit =>
      exact withinSustains_shrinking (within_bulkDeleteIds withinShrinking_entombMemory withinShrinking_insertAuditDraft _ _ _ _)
  | evictExpired scope audit =>
      exact withinSustains_shrinking (within_evictExpired withinShrinking_entombMemory withinShrinking_insertAuditDraft _ _ _)
  | markSupersededBy id supersededBy =>
      exact withinSustains_keepsIndex (keepsIndex_markSuperseded _ _)
  | markSupersededByAuthorized id supersededBy principal audit =>
      exact withinSustains_keepsIndex (keepsIndex_markSupersededByAuthorized _ _ _ _)
  | markSupersededIfUnchanged member representative principal audit =>
      exact withinSustains_keepsIndex (keepsIndex_markSupersededIfUnchanged _ _ _ _)
  | recordSearchImpression ids =>
      exact withinSustains_of_keepsIndex (keepsIndex_recordSearchImpression _ _)
  | recordMemoryUse decayMass ids principal eventWeight =>
      exact withinSustains_keepsIndex (keepsIndex_recordMemoryUse _ _ _ _ _)
  | writeAuditEntry id audit =>
      exact withinSustains_of_keepsIndex (keepsIndex_insertAuditDraft _ _)
  | claimForReembed principal limit token =>
      exact withinSustains_keepsIndex (keepsIndex_claimForReembed _ _ _ _)
  | releaseEmbeddingClaim id expectedRevision token =>
      exact withinSustains_keepsIndex (keepsIndex_releaseEmbeddingClaim _ _ _)
  | setEmbedding id embedding expectedRevision =>
      intro state value next ran
      exact (growing_setEmbedding ran).sustains
  | verifyEmbeddingProfile profile => exact withinSustains_verifyEmbeddingProfile _
  | reindexEmbeddings profile => exact withinSustains_reindexEmbeddings _
  | upsertMetadata metadata audit =>
      exact withinSustains_of_keepsIndex (keepsIndex_upsertMetadataAudited _ _ _)
  | migrateMetadata dryRun audit =>
      exact withinSustains_keepsIndex (keepsIndex_migrateMetadata _ _ _)
  | registerScope newId scope principal =>
      exact withinSustains_of_leavesMemories (leavesMemories_registerLegacyScopeContext _ _ _ _)
  | reassignScope newId fromScope toScope origin principal audit =>
      exact withinSustains_keepsIndex (keepsIndex_applyReassignScope _ _ _ _ _ _ _)
  | replaceMemoryContexts id contextIds principal audit =>
      exact withinSustains_keepsIndex (keepsIndex_replaceMemoryContexts _ _ _ _ _)
  | createContext draft audit =>
      exact withinSustains_keepsIndex
        (keepsIndex_of_leavesMemories (leavesMemories_createContext _ _ _))
  | setContextParent id parentId principal audit =>
      exact withinSustains_of_leavesMemories (leavesMemories_setContextParent _ _ _ _ _)
  | setContextLifecycle id lifecycle principal audit =>
      exact withinSustains_of_leavesMemories (leavesMemories_setContextLifecycle _ _ _ _ _)
  | grantContextUse id grantee principal audit =>
      exact withinSustains_of_leavesMemories (leavesMemories_grantContextUse _ _ _ _ _)
  | revokeContextUse id grantee principal audit =>
      exact withinSustains_of_leavesMemories (leavesMemories_revokeContextUse _ _ _ _ _)
  | replaceContextGrants id grantees principal audit =>
      exact withinSustains_of_leavesMemories (leavesMemories_replaceContextGrants _ _ _ _ _)
  | updateContextDefinition id patch principal audit =>
      exact withinSustains_of_leavesMemories (leavesMemories_updateContextDefinition _ _ _ _ _)
  | upsertContextKind kind displayName enabled principal audit =>
      exact withinSustains_of_leavesMemories (leavesMemories_upsertContextKind _ _ _ _ _ _)
  | upsertContextKindPolicy layer policyPrincipal kind policy principal audit =>
      exact withinSustains_of_leavesMemories
        (leavesMemories_upsertContextKindPolicy _ _ _ _ _ _ _)
  | upsertContextAnchorPolicy anchorId policyPrincipal policy principal audit =>
      exact withinSustains_of_leavesMemories
        (leavesMemories_upsertContextAnchorPolicy _ _ _ _ _ _)
  | rollbackUnreferencedLegacyContext id principal =>
      exact withinSustains_keepsIndex
        (keepsIndex_of_leavesMemories (leavesMemories_rollbackUnreferencedLegacyContext _ _))

/-- One step of the store sustains the index, committed or aborted. -/
theorem storeStep_sustains {db next : Db} {call : StoreCall}
    (stepEq : storeStep db call = some next) : Sustains call.Writes db next := by
  rcases (storeStep_ran stepEq).2 with rfl | ran
  · exact fun indexOk => ⟨indexOk, fun _ => Evolves.of_eq rfl⟩
  · exact withinSustains_body call ran

omit [Host] in
theorem indexOk_empty (dimensions : Nat) : IndexOk (Db.empty dimensions) where
  mapped _ mappingMem := by cases mappingMem
  named _ vectorMem := by cases vectorMem
  unshared _ firstMem := by cases firstMem
  flagged _ _ found := by cases found

/-! ## Properties of stored vectors -/

/-- Every stored vector has a property, next to the row that carries it. -/
def VectorsMeet (good : EmbeddingView → Embedding → Prop) (db : Db) : Prop :=
  ∀ id view embedding, db.embeddingView id = some view → view.vector = some embedding →
    good view embedding

omit [Host] in
/-- In a well-formed index the stored vectors are those of the flagged rows. -/
theorem IndexOk.vectorsMeet_iff {good : EmbeddingView → Embedding → Prop} {db : Db}
    (indexOk : IndexOk db) :
    VectorsMeet good db ↔ ∀ row ∈ db.memories, row.hasEmbedding = 1 →
      ∃ embedding, db.vectorOf row.id = some embedding ∧
        good ⟨row.content, row.embeddingRevision, some embedding, db.embeddingProfile⟩
          embedding := by
  constructor
  · intro meet row rowMem flag
    have found : db.memories.find? row.id = some row := Table.find?_eq_some_iff.mpr ⟨rowMem, rfl⟩
    obtain ⟨embedding, vectorEq⟩ :=
      indexOk.toMapOk.exists_vectorOf ((indexOk.flagged row.id row found).mp flag)
    have viewEq : db.embeddingView row.id = some ⟨row.content, row.embeddingRevision,
        some embedding, db.embeddingProfile⟩ := by
      simp [Db.embeddingView, Db.indexed, found, MemoryRow.indexedColumns, flag, vectorEq]
    exact ⟨embedding, vectorEq, meet row.id _ embedding viewEq rfl⟩
  · intro rowsMeet id view embedding viewEq vectorEq
    obtain ⟨columns, indexed, rfl⟩ := Option.map_eq_some_iff.mp viewEq
    obtain ⟨row, found, rfl⟩ := Option.map_eq_some_iff.mp indexed
    obtain ⟨rowMem, rfl⟩ := Table.find?_eq_some_iff.mp found
    by_cases flag : row.hasEmbedding = 1
    · obtain ⟨stored, storedEq, storedGood⟩ := rowsMeet row rowMem flag
      simp only [MemoryRow.indexedColumns, flag, if_true, storedEq, Option.some.injEq] at vectorEq
      subst vectorEq
      simpa only [MemoryRow.indexedColumns, flag, if_true, storedEq] using storedGood
    · simp [MemoryRow.indexedColumns, flag] at vectorEq

/-- A property of stored vectors is kept when the vectors a call writes have it. -/
theorem VectorsMeet.storeStep {good : EmbeddingView → Embedding → Prop} {db next : Db}
    {call : StoreCall} (indexOk : IndexOk db) (stepEq : storeStep db call = some next)
    (meet : VectorsMeet good db)
    (writes : ∀ id view embedding, next.embeddingView id = some view → call.Writes id view →
      view.vector = some embedding → good view embedding) :
    VectorsMeet good next := by
  intro id view embedding viewEq vectorEq
  have evolves := (storeStep_sustains stepEq indexOk).2 id
  cases oldView : db.embeddingView id with
  | none =>
      rcases evolves.fresh view oldView viewEq with absent | wrote
      · rw [absent] at vectorEq
        cases vectorEq
      · exact writes id view embedding viewEq wrote vectorEq
  | some old =>
      rcases (evolves.kept old view oldView viewEq).vector with absent | same | wrote
      · rw [absent] at vectorEq
        cases vectorEq
      · rw [same] at vectorEq ⊢
        exact meet id old embedding oldView vectorEq
      · exact writes id view embedding viewEq wrote vectorEq

end LocalHold
