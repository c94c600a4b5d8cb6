import LocalHold.Store.MembershipEffects
import LocalHold.Store.ScopeInvariant

/-!
# The numbering of memberships

Every command leaves the ordinals of a memory or numbers its memberships afresh.
So the memberships of a memory name distinct stored contexts and are numbered
from zero without a gap, in every state that commands reach from a store without
memories.
-/

namespace LocalHold

open Relational Transition Transition.Txn

/-! ## Ordinals that stay or are numbered afresh -/

/-- The ordinals of each memory stay or are numbered from zero. -/
def Renumbers (db next : Db) : Prop :=
  db.Anchored → next.Anchored ∧ ∀ id, (next.scopeView id).ordinals = (db.scopeView id).ordinals ∨
    (next.scopeView id).ordinals = List.range (next.scopeView id).ordinals.length

instance : Std.Refl Renumbers :=
  ⟨fun _ anchored => ⟨anchored, fun _ => Or.inl rfl⟩⟩

instance : IsTrans Db Renumbers :=
  ⟨fun first second third early late anchored => by
    obtain ⟨secondAnchored, earlyOrdinals⟩ := early anchored
    obtain ⟨thirdAnchored, lateOrdinals⟩ := late secondAnchored
    refine ⟨thirdAnchored, fun id => ?_⟩
    rcases lateOrdinals id with same | fresh
    · rcases earlyOrdinals id with older | numbered
      · exact Or.inl (same.trans older)
      · rw [← same] at numbered
        exact Or.inr numbered
    · exact Or.inr fresh⟩

section Rules

variable {db next : Db} {touched : MemoryId → Prop} {id : MemoryId}

theorem ScopeTouches.renumbers_of_kept (kept : ScopeTouches (fun _ => False) db next) :
    Renumbers db next := by
  intro anchored
  obtain ⟨nextAnchored, views⟩ := kept anchored
  refine ⟨nextAnchored, fun id => Or.inl ?_⟩
  rw [views id not_false]

theorem ScopeRestored.renumbers (restored : ScopeRestored id db next) : Renumbers db next := by
  intro anchored
  obtain ⟨nextAnchored, views⟩ := restored.1 anchored
  refine ⟨nextAnchored, fun other => ?_⟩
  by_cases same : other = id
  · rw [same]
    exact Or.inr (restored.2 anchored).ordinals
  · rw [views other same]
    exact Or.inl rfl

/-- What touches scopes but no memberships keeps the ordinals. -/
theorem ScopeTouches.renumbers (touches : ScopeTouches touched db next)
    (same : next.memberFrame = db.memberFrame) : Renumbers db next := by
  intro anchored
  refine ⟨(touches anchored).1, fun id => Or.inl ?_⟩
  have memberships : next.memoryContexts = db.memoryContexts := (Prod.mk.inj same).2
  rw [Db.scopeView, Db.scopeView, Db.membershipsOf, Db.membershipsOf, memberships]

variable {α : Type} {body : StoreM α}

theorem KeepsScopes.renumbers (inner : KeepsScopes body) : Within Renumbers body :=
  inner.mono fun _ _ kept => kept.renumbers_of_kept

theorem renumbers_of_members (inner : Within (ScopeTouches touched) body)
    (leaves : LeavesMembers body) : Within Renumbers body := by
  intro db value next ran
  exact (inner ran).renumbers (leaves ran)

end Rules

/-- The contexts of a memory are distinct. -/
theorem Db.nodup_membershipContexts (db : Db) (id : MemoryId) :
    ((db.membershipsOf id).map (·.contextId)).Nodup := by
  have stored : ((db.membershipsOf id).map fun row => (row.memoryId, row.contextId)).Nodup :=
    db.memoryContexts.nodup.sublist (List.filter_sublist.map _)
  have owned : (db.membershipsOf id).map (fun row => (row.memoryId, row.contextId)) =
      ((db.membershipsOf id).map (·.contextId)).map fun contextId => (id, contextId) := by
    rw [List.map_map]
    apply List.map_congr_left
    intro row rowMem
    have own := (Table.mem_select_iff.mp rowMem).2
    rw [Function.comp_apply, of_decide_eq_true own]
  exact List.Nodup.of_map _ (owned ▸ stored)

/-! ## Commands -/

theorem renumbers_insertAuditDraft (id : MemoryId) (audit : AuditDraft) :
    Within Renumbers (insertAuditDraft id audit) :=
  (keepsScopes_insertAuditDraft id audit).renumbers

theorem renumbers_auditAfter {audit : Option AuditDraft} {id : MemoryId} :
    Within Renumbers (onSome audit (insertAuditDraft id)) :=
  Within.onSome fun _ _ => renumbers_insertAuditDraft _ _

theorem renumbers_entombMemory (memory : Memory) (deletedAt : Instant)
    (deletedBy : Option String) : Within Renumbers (entombMemory memory deletedAt deletedBy) := by
  refine Within.bind (KeepsScopes.renumbers (keepsScopes_of_tables (Within.writes fun _ => rfl)))
    fun _ => ?_
  refine Within.bind (readsOnly_memoryExists memory.id).within fun present => ?_
  cases present with
  | false => exact Within.pure
  | true =>
      refine Within.bind (Within.writes fun db => ?_) fun _ => Within.pure
      exact (restores_dropMemory memory.id db).renumbers

theorem renumbers_insertPrepared (dimensions : Nat) (item : MemoryWithEmbedding) :
    Within Renumbers (insertPrepared dimensions item) := by
  have row : Within Renumbers (insertMemoryRow (preparedMemoryRow item)) :=
    renumbers_of_members (touchesScope_insertMemoryRow _)
      (Within.reads_expect_writes fun _ _ _ => rfl)
  exact Within.bind row fun _ => (keepsScopes_indexPrepared dimensions item).renumbers

theorem renumbers_insertPreparedWithSupersession (dimensions : Nat) (item : MemoryWithEmbedding)
    (supersedes : Option MemoryId) (audit : Option AuditDraft) :
    Within Renumbers (insertPreparedWithSupersession dimensions item supersedes audit) := by
  refine Within.bind (Within.onSome fun _ _ => (readsOnly_validateSupersededExists _).within)
    fun _ => ?_
  refine Within.bind (renumbers_insertPrepared _ _) fun _ => ?_
  exact (keepsScopes_supersedeAndAudit _ _ _).renumbers

theorem renumbers_upsertMetadata (metadata : MemoryMetadata) (now : Instant) :
    Within Renumbers (upsertMetadata metadata now) :=
  renumbers_of_members (touchesScope_upsertMetadata metadata now)
    (quiet_upsertMetadata metadata now).leavesMembers

theorem renumbers_storeItemWithMetadata (dimensions : Nat) (item : MemoryWithEmbedding)
    (supersedes : Option MemoryId) (metadata : MemoryMetadata) (audit : Option AuditDraft)
    (now : Instant) :
    Within Renumbers (storeItemWithMetadata dimensions item supersedes metadata audit now) :=
  Within.bind (renumbers_insertPreparedWithSupersession _ _ _ _) fun _ =>
    renumbers_upsertMetadata _ _

theorem renumbers_applyUpdateInner (id : MemoryId) (update : MemoryUpdate) (now : Instant) :
    Within Renumbers (applyUpdateInner id update now) :=
  renumbers_of_members (touchesScope_applyUpdateInner id update now)
    (quiet_applyUpdateInner id update now).leavesMembers

theorem renumbers_validatedUpdate {α : Type} {id : MemoryId} {update : MemoryUpdate}
    {now : Instant} {rest : AuthorizedUpdateOutcome → StoreM α}
    (restWithin : ∀ outcome, Within Renumbers (rest outcome)) :
    Within Renumbers (do
      validateCompatibilityCacheUpdate id update none
      let outcome ← applyUpdateInner id update now
      rest outcome) := by
  refine Within.bind (readsOnly_validateCompatibilityCacheUpdate _ _ _).within fun _ => ?_
  exact Within.bind (renumbers_applyUpdateInner _ _ _) restWithin

theorem renumbers_applyUpdate (id : MemoryId) (update : MemoryUpdate) (now : Instant) :
    Within Renumbers (applyUpdate id update now) := by
  unfold applyUpdate
  split
  · exact Within.bind (readsOnly_memoryExists id).within fun _ => Within.pure
  · refine Within.bind Within.reads fun found => ?_
    cases found with
    | none => exact Within.pure
    | some existing =>
        refine Within.bind (readsOnly_validateCompatibilityCacheUpdate _ _ _).within fun _ => ?_
        exact renumbers_applyUpdateInner _ _ _

theorem renumbers_updateAuthorized (id : MemoryId) (update : MemoryUpdate) (principal : String)
    (audit : Option AuditDraft) (now : Instant) :
    Within Renumbers (updateAuthorized id update principal audit now) := by
  refine Within.bind Within.reads fun found => ?_
  cases found with
  | none => exact Within.pure
  | some existing =>
      dsimp only
      split
      · refine renumbers_validatedUpdate fun _ => ?_
        refine Within.bind (Within.onSome fun _ _ => ?_) fun _ => Within.pure
        exact renumbers_insertAuditDraft _ _
      · exact Within.pure

theorem renumbers_bulkUpdateIds (ids : List MemoryId) (update : MemoryUpdate)
    (principal : String) (audit : Option AuditDraft) (now : Instant) :
    Within Renumbers (bulkUpdateIds ids update principal audit now) := by
  refine Within.foldlM fun outcome id _ => ?_
  refine Within.bind Within.reads fun found => ?_
  cases found with
  | none => exact Within.pure
  | some memory =>
      dsimp only
      split
      · refine renumbers_validatedUpdate fun _ => ?_
        exact Within.bind renumbers_auditAfter fun _ => Within.pure
      · exact Within.pure

theorem renumbers_insertMigratedMetadata (row : PreparedMigrationMetadata)
    (audit : Option AuditDraft) (now : Instant) :
    Within Renumbers (insertMigratedMetadata row audit now) := by
  refine renumbers_of_members (touchesScope_insertMigratedMetadata row audit now) ?_
  exact Quiet.leavesMembers (quiet_insertMigratedMetadata row audit now)

variable [Host]

theorem renumbers_applyMetadataPatch (id : MemoryId) (patch : MetadataPatch)
    (fallback : Option String) (principal : String) (now : Instant) :
    Within Renumbers (applyMetadataPatch id patch fallback principal now) :=
  renumbers_of_members (touchesScope_applyMetadataPatch _ _ _ _ _)
    (quiet_applyMetadataPatch _ _ _ _ _).leavesMembers

theorem renumbers_applyPatchAfterUpdate (id : MemoryId) (update : MemoryUpdate)
    (patch : Option MetadataPatch) (existing : Memory) (principal : String) (now : Instant) :
    Within Renumbers (applyPatchAfterUpdate id update patch existing principal now) :=
  renumbers_of_members (touchesScope_applyPatchAfterUpdate _ _ _ _ _ _)
    (quiet_applyPatchAfterUpdate _ _ _ _ _ _).leavesMembers

theorem renumbers_updateAuthorizedWithMetadata (id : MemoryId) (update : MemoryUpdate)
    (patch : Option MetadataPatch) (principal : String) (audit : Option AuditDraft)
    (now : Instant) :
    Within Renumbers (updateAuthorizedWithMetadata id update patch principal audit now) := by
  refine Within.bind Within.reads fun found => ?_
  cases found with
  | none => exact Within.pure
  | some existing =>
      dsimp only
      split
      · refine Within.bind (readsOnly_validateCompatibilityCacheUpdate _ _ _).within fun _ => ?_
        refine Within.bind (renumbers_applyUpdateInner _ _ _) fun outcome => ?_
        split
        · refine Within.bind (renumbers_applyPatchAfterUpdate _ _ _ _ _ _) fun _ => ?_
          refine Within.bind (Within.onSome fun _ _ => ?_) fun _ => Within.pure
          exact renumbers_insertAuditDraft _ _
        · exact Within.pure
      · exact Within.pure

theorem renumbers_updateAuthorizedWithMetadataContexts (id : MemoryId) (update : MemoryUpdate)
    (patch : Option MetadataPatch) (contextIds : Option (List ContextId)) (principal : String)
    (audit : AuditDraft) (contextAudit : Option ContextAuditDraft) (now : Instant) :
    Within Renumbers (updateAuthorizedWithMetadataContexts id update patch contextIds principal
      audit contextAudit now) := by
  refine Within.bind Within.require fun _ => ?_
  refine Within.bind Within.reads fun found => ?_
  cases found with
  | none => exact Within.pure
  | some existing =>
      dsimp only
      split
      · refine Within.bind (Within.onSome fun _ _ =>
          (readsOnly_validateCompatibilityCacheUpdate _ _ _).within) fun _ => ?_
        refine Within.bind (renumbers_applyUpdateInner _ _ _) fun outcome => ?_
        split
        · refine Within.bind (renumbers_applyPatchAfterUpdate _ _ _ _ _ _) fun _ => ?_
          refine Within.bind (Within.onSome fun _ _ => ?_) fun _ => ?_
          · exact Within.mono (restores_replaceContextsForUpdate _ _ _ _ _ _ _)
              fun _ _ restored => restored.renumbers
          · exact Within.bind (renumbers_insertAuditDraft _ _) fun _ => Within.pure
        · exact Within.pure
      · exact Within.pure

theorem renumbers_updateAuthorizedIfUnmodified (dimensions : Nat)
    (activeProfile : Option EmbeddingProfile) (id : MemoryId) (expectedRevision : Int)
    (update : MemoryUpdate) (patch : Option MetadataPatch)
    (contextIds : Option (List ContextId)) (embedding : Option Embedding) (principal : String)
    (audit : AuditDraft) (contextAudit : Option ContextAuditDraft) (now : Instant) :
    Within Renumbers (updateAuthorizedIfUnmodified dimensions activeProfile id expectedRevision
      update patch contextIds embedding principal audit contextAudit now) := by
  refine Within.bind Within.require fun _ => ?_
  refine Within.bind (Within.onSome fun _ _ => (readsOnly_validateEmbeddingVector _ _).within)
    fun _ => ?_
  refine Within.bind Within.require fun _ => ?_
  refine Within.bind Within.reads fun found => ?_
  cases found with
  | none => exact Within.pure
  | some existing =>
      dsimp only
      split
      · refine Within.bind Within.require fun _ => ?_
        refine Within.bind (Within.onSome fun _ _ =>
          (readsOnly_validateCompatibilityCacheUpdate _ _ _).within) fun _ => ?_
        refine Within.bind (renumbers_applyUpdateInner _ _ _) fun _ => ?_
        refine Within.bind (Within.onSome fun _ _ =>
          (keepsScopes_storeReplacementEmbedding _ _ _ _).renumbers) fun _ => ?_
        refine Within.bind (Within.onSome fun _ _ => renumbers_applyMetadataPatch _ _ _ _ _)
          fun _ => ?_
        refine Within.bind (Within.onSome fun _ _ =>
          (keepsScopes_incrementRecordRevision _ _).renumbers) fun _ => ?_
        refine Within.bind (Within.onSome fun _ _ => ?_) fun _ => ?_
        · exact Within.mono (restores_replaceContextsOptimistically _ _ _ _ _)
            fun _ _ restored => restored.renumbers
        · exact Within.bind (renumbers_insertAuditDraft _ _) fun _ => Within.pure
      · exact Within.pure

omit [Host] in
theorem renumbers_upsertMetadataAudited (metadata : MemoryMetadata) (audit : Option AuditDraft)
    (now : Instant) : Within Renumbers (upsertMetadataAudited metadata audit now) := by
  refine Within.bind Within.reads fun _ => ?_
  refine Within.bind Within.expect fun _ => ?_
  refine Within.bind Within.reads fun _ => ?_
  refine Within.bind Within.require fun _ => ?_
  refine Within.bind (renumbers_upsertMetadata _ _) fun _ => ?_
  refine Within.bind (keepsScopes_incrementRecordRevision _ _).renumbers fun _ => ?_
  exact renumbers_auditAfter

theorem renumbers_migrateMetadata (dryRun : Bool) (audit : Option AuditDraft) (now : Instant) :
    Within Renumbers (migrateMetadata dryRun audit now) := by
  refine Within.bind Within.reads fun _ => ?_
  refine Within.bind Within.reads fun _ => ?_
  split
  · exact Within.pure
  · refine Within.bind (Within.mapM fun _ _ => ?_) fun _ => Within.pure
    exact renumbers_insertMigratedMetadata _ _ _

omit [Host] in
/-- A command on contexts that deletes none keeps the ordinals. -/
theorem renumbers_of_keysGrow {α : Type} {body : StoreM α} (leaves : LeavesMemories body)
    (grows : Within KeysGrow body) : Within Renumbers body :=
  (keepsScopes_of_keysGrow leaves grows).renumbers

/-- Every command keeps the ordinals of a memory or numbers its memberships. -/
theorem renumbers_body (command : StoreCommand) (handle : StoreHandle) (now : Instant) :
    Within Renumbers (command.body handle now) := by
  have restored : ∀ id db next, ScopeRestored id db next → Renumbers db next :=
    fun _ _ _ restored => restored.renumbers
  cases command with
  | store item audit =>
      apply within_discard
      refine Within.bind (renumbers_insertPrepared _ _) fun _ => ?_
      exact Within.bind renumbers_auditAfter fun _ => Within.pure
  | storeWithSupersession item supersedes audit =>
      exact within_discard
        (Within.bind (renumbers_insertPreparedWithSupersession _ _ _ _) fun _ => Within.pure)
  | storeWithMetadata item supersedes metadata audit =>
      apply within_discard
      refine Within.bind Within.require fun _ => ?_
      exact Within.bind (renumbers_storeItemWithMetadata _ _ _ _ _ _) fun _ => Within.pure
  | storeBatch items audits =>
      apply within_discard
      refine Within.bind (Within.onSome fun _ _ => Within.require) fun _ => ?_
      refine Within.bind (Within.forM fun _ _ => ?_) fun _ => Within.pure
      exact Within.bind (renumbers_insertPrepared _ _) fun _ => renumbers_auditAfter
  | storeBatchWithSupersession items supersedes audits =>
      apply within_discard
      refine Within.bind Within.require fun _ => ?_
      refine Within.bind (Within.onSome fun _ _ => Within.require) fun _ => ?_
      refine Within.bind (Within.forM fun _ _ => ?_) fun _ => Within.pure
      exact renumbers_insertPreparedWithSupersession _ _ _ _
  | storeBatchWithMetadata items supersedes metadata audits =>
      apply within_discard
      refine Within.bind Within.require fun _ => ?_
      refine Within.bind Within.require fun _ => ?_
      refine Within.bind (Within.onSome fun _ _ => Within.require) fun _ => ?_
      refine Within.bind (Within.forM fun _ _ => Within.require) fun _ => ?_
      refine Within.bind (Within.forM fun _ _ => ?_) fun _ => Within.pure
      exact renumbers_storeItemWithMetadata _ _ _ _ _ _
  | storeWithMetadataContexts request =>
      exact within_discard (within_storeWithMetadataContexts restored _ _ _)
  | storeBatchWithMetadataContexts items supersedes metadata contextIds audits contextAudits =>
      exact within_discard
        (within_storeBatchWithMetadataContexts restored _ _ _ _ _ _ _ _)
  | update id changes => exact within_discard (renumbers_applyUpdate _ _ _)
  | updateAuthorized id changes principal audit =>
      exact within_discard (renumbers_updateAuthorized _ _ _ _ _)
  | updateAuthorizedWithMetadata id changes patch principal audit =>
      exact within_discard (renumbers_updateAuthorizedWithMetadata _ _ _ _ _ _)
  | updateAuthorizedWithMetadataContexts id changes patch contextIds principal audit
      contextAudit =>
      exact within_discard (renumbers_updateAuthorizedWithMetadataContexts _ _ _ _ _ _ _ _)
  | updateIfUnmodified id expectedRevision changes patch contextIds embedding principal audit
      contextAudit =>
      exact within_discard
        (renumbers_updateAuthorizedIfUnmodified _ _ _ _ _ _ _ _ _ _ _ _)
  | bulkUpdate ids changes principal audit =>
      exact within_discard (renumbers_bulkUpdateIds _ _ _ _ _)
  | delete id => exact within_discard (within_applyDelete renumbers_entombMemory _ _)
  | deleteAuthorized id principal audit =>
      exact within_discard
        (within_deleteAuthorized renumbers_entombMemory renumbers_insertAuditDraft _ _ _ _)
  | deleteIfUnmodified id expectedRevision principal audit =>
      exact within_discard (within_deleteAuthorizedIfUnmodified renumbers_entombMemory
        renumbers_insertAuditDraft _ _ _ _ _)
  | bulkDelete ids principal audit =>
      exact within_discard
        (within_bulkDeleteIds renumbers_entombMemory renumbers_insertAuditDraft _ _ _ _)
  | evictExpired scope audit =>
      exact within_discard
        (within_evictExpired renumbers_entombMemory renumbers_insertAuditDraft _ _ _)
  | markSupersededBy id supersededBy =>
      exact within_discard (keepsScopes_markSuperseded _ _).renumbers
  | markSupersededByAuthorized id supersededBy principal audit =>
      exact within_discard (keepsScopes_markSupersededByAuthorized _ _ _ _).renumbers
  | markSupersededIfUnchanged member representative principal audit =>
      exact within_discard (keepsScopes_markSupersededIfUnchanged _ _ _ _).renumbers
  | recordSearchImpression ids => exact (keepsScopes_recordSearchImpression _ _).renumbers
  | recordMemoryUse decayMass ids principal eventWeight =>
      exact within_discard (keepsScopes_recordMemoryUse _ _ _ _ _).renumbers
  | writeAuditEntry id audit => exact renumbers_insertAuditDraft _ _
  | claimForReembed principal limit token =>
      exact within_discard (keepsScopes_claimForReembed _ _ _ _).renumbers
  | releaseEmbeddingClaim id expectedRevision token =>
      exact within_discard (KeepsScopes.renumbers (keepsScopes_updateMemoryWhere fun _ => rfl))
  | setEmbedding id embedding expectedRevision =>
      exact (keepsScopes_setEmbedding _ _ _ _ _).renumbers
  | verifyEmbeddingProfile profile => exact (keepsScopes_verifyEmbeddingProfile _).renumbers
  | reindexEmbeddings profile => exact (keepsScopes_reindexEmbeddings _).renumbers
  | upsertMetadata metadata audit => exact renumbers_upsertMetadataAudited _ _ _
  | migrateMetadata dryRun audit => exact within_discard (renumbers_migrateMetadata _ _ _)
  | registerScope newId scope principal =>
      exact renumbers_of_keysGrow (leavesMemories_registerLegacyScopeContext _ _ _ _)
        (keysGrow_registerLegacyScopeContext _ _ _ _)
  | reassignScope newId fromScope toScope origin principal audit =>
      exact within_discard
        (within_applyReassignScope (fun _ _ kept => kept.renumbers_of_kept) restored _ _ _ _ _ _ _)
  | replaceMemoryContexts id contextIds principal audit =>
      exact within_discard (within_replaceMemoryContexts restored _ _ _ _ _)
  | createContext draft audit =>
      exact within_discard (renumbers_of_keysGrow (leavesMemories_createContext _ _ _)
        (keysGrow_createContext _ _ _))
  | setContextParent id parentId principal audit =>
      exact renumbers_of_keysGrow (leavesMemories_setContextParent _ _ _ _ _)
        (keysGrow_setContextParent _ _ _ _ _)
  | setContextLifecycle id lifecycle principal audit =>
      exact renumbers_of_keysGrow (leavesMemories_setContextLifecycle _ _ _ _ _)
        (keysGrow_setContextLifecycle _ _ _ _ _)
  | grantContextUse id grantee principal audit =>
      exact renumbers_of_keysGrow (leavesMemories_grantContextUse _ _ _ _ _)
        (leavesContexts_grantContextUse _ _ _ _ _).keysGrow
  | revokeContextUse id grantee principal audit =>
      exact renumbers_of_keysGrow (leavesMemories_revokeContextUse _ _ _ _ _)
        (leavesContexts_revokeContextUse _ _ _ _ _).keysGrow
  | replaceContextGrants id grantees principal audit =>
      exact renumbers_of_keysGrow (leavesMemories_replaceContextGrants _ _ _ _ _)
        (leavesContexts_replaceContextGrants _ _ _ _ _).keysGrow
  | updateContextDefinition id patch principal audit =>
      exact renumbers_of_keysGrow (leavesMemories_updateContextDefinition _ _ _ _ _)
        (keysGrow_updateContextDefinition _ _ _ _ _)
  | upsertContextKind kind displayName enabled principal audit =>
      exact renumbers_of_keysGrow (leavesMemories_upsertContextKind _ _ _ _ _ _)
        (keysGrow_upsertContextKind _ _ _ _ _ _)
  | upsertContextKindPolicy layer policyPrincipal kind policy principal audit =>
      exact renumbers_of_keysGrow (leavesMemories_upsertContextKindPolicy _ _ _ _ _ _ _)
        (leavesContexts_upsertContextKindPolicy _ _ _ _ _ _ _).keysGrow
  | upsertContextAnchorPolicy anchorId policyPrincipal policy principal audit =>
      exact renumbers_of_keysGrow (leavesMemories_upsertContextAnchorPolicy _ _ _ _ _ _)
        (leavesContexts_upsertContextAnchorPolicy _ _ _ _ _ _).keysGrow
  | rollbackUnreferencedLegacyContext id principal =>
      exact within_discard (keepsScopes_rollbackUnreferencedLegacyContext _ _).renumbers

/-! ## Runs -/

omit [Host] in
/-- Memberships belong to stored memories and contexts, and are numbered. -/
structure Db.Numbered (db : Db) : Prop where
  anchored : db.Anchored
  ordinals : ∀ id, (db.scopeView id).ordinals = List.range (db.scopeView id).ordinals.length

omit [Host] in
theorem Db.Numbered.renumbered {db next : Db} (numbered : db.Numbered)
    (renumbers : Renumbers db next) : next.Numbered := by
  obtain ⟨anchored, ordinals⟩ := renumbers numbered.anchored
  refine ⟨anchored, fun id => ?_⟩
  rcases ordinals id with same | fresh
  · rw [same]
    exact numbered.ordinals id
  · exact fresh

omit [Host] in
theorem Db.Vacant.numbered {db : Db} (vacant : db.Vacant) : db.Numbered :=
  ⟨vacant.scopesCached.anchored, fun id => (vacant.scopesCached.cached id).ordinals⟩

theorem numbered_run {start final : Db} {calls : List StoreCall} (vacant : start.Vacant)
    (runEq : run storeStep start calls = some final) : final.Numbered := by
  refine run_invariant (fun db call next held stepEq => ?_) vacant.numbered runEq
  exact held.renumbered (storeStep_within (renumbers_body _ call.handle call.now) stepEq)

/-- In every state that commands reach from a store without memories, the
memberships of a memory name distinct stored contexts and are numbered from zero
without a gap. -/
theorem memberships_numbered {start final : Db} {calls : List StoreCall} (vacant : start.Vacant)
    (runEq : run storeStep start calls = some final) (id : MemoryId) :
    ((final.membershipsOf id).map (·.contextId)).Nodup ∧
      (∀ row ∈ final.membershipsOf id, final.contexts.contains row.contextId = true) ∧
      (final.membershipsOf id).map (·.ordinal) = List.range (final.membershipsOf id).length := by
  have numbered := numbered_run vacant runEq
  refine ⟨final.nodup_membershipContexts id, ?_, ?_⟩
  · intro row rowMem
    exact (numbered.anchored.memberships row (Table.mem_select_iff.mp rowMem).1).2
  · have ordinals := numbered.ordinals id
    rw [Db.scopeView, List.length_map] at ordinals
    exact ordinals

omit [Host] in
/-- Two memories are stored in overlapping projects, and the first is moved. -/
def movedBetweenProjects : List StoreCall :=
  let memory (id : Nat) (scope : String) := { Memory.plain ⟨id⟩ "owner" "a note" 0 with
    provenance := { Provenance.default with
      sourceAgent := some "owner"
      sourceConversation := some scope } }
  let audit : ContextAuditDraft := ⟨"owner", "memory_context", none, none, none⟩
  let request (id : Nat) (scope : String) (contextIds : List ContextId) : GovernedItem :=
    ⟨⟨memory id scope, none⟩, none, ⟨⟨id⟩, some scope, none, none, none, [], 1⟩, contextIds,
      ⟨.store, some "owner", 0, none⟩, audit⟩
  [.createContext (projectDraft ⟨1⟩ "atlas") audit,
    .createContext (projectDraft ⟨2⟩ "borealis") audit,
    .createContext (projectDraft ⟨3⟩ "cygnus") audit,
    .storeWithMetadataContexts (request 7 "atlas" [⟨1⟩, ⟨2⟩]),
    .storeWithMetadataContexts (request 8 "borealis" [⟨2⟩, ⟨1⟩, ⟨3⟩]),
    .replaceMemoryContexts ⟨7⟩ [⟨3⟩, ⟨2⟩, ⟨1⟩] "owner" audit].map
      fun command => ⟨⟨3, none⟩, 0, command⟩

omit [Host] in
theorem memberships_numbered_stored :
    projectKindStore.Vacant ∧
      ∃ final, @run _ _ (@storeStep asciiHost) projectKindStore movedBetweenProjects =
          some final ∧
        (final.membershipsOf ⟨7⟩).map (·.contextId) = [⟨3⟩, ⟨2⟩, ⟨1⟩] ∧
        (final.membershipsOf ⟨7⟩).map (·.ordinal) =
          List.range (final.membershipsOf ⟨7⟩).length ∧
        (final.membershipsOf ⟨8⟩).map (·.ordinal) =
          List.range (final.membershipsOf ⟨8⟩).length := by
  have vacant : projectKindStore.Vacant := ⟨rfl, rfl, rfl⟩
  have ran : ∃ final, @run _ _ (@storeStep asciiHost) projectKindStore movedBetweenProjects =
      some final ∧ (final.membershipsOf ⟨7⟩).map (·.contextId) = [⟨3⟩, ⟨2⟩, ⟨1⟩] :=
    ⟨_, rfl, rfl⟩
  obtain ⟨final, runEq, joined⟩ := ran
  have numbered := @memberships_numbered asciiHost _ _ _ vacant runEq
  exact ⟨vacant, final, runEq, joined, (numbered ⟨7⟩).2.2, (numbered ⟨8⟩).2.2⟩

end LocalHold
