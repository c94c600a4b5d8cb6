import LocalHold.Store.LinkEffects

/-!
# Contexts along runs of the store

Commands that store, mark or delete memories leave the contexts.  With the
effects of the other commands this bounds every step of the store: the context
tables evolve by the changes of `ContextChange`, where inserted rows come from a
creation draft or have an unreserved key.
-/

namespace LocalHold

open Relational Transition Transition.Txn

/-! ## Commands on memories -/

theorem leavesMembers_insertPrepared (dimensions : Nat) (item : MemoryWithEmbedding) :
    LeavesMembers (insertPrepared dimensions item) := by
  refine Within.bind (Within.reads_expect_writes fun _ _ _ => rfl) fun _ => ?_
  refine Within.bind (Within.onSome fun _ _ => ?_) fun _ => ?_
  · exact (quiet_vectorUpsert _ _ _).leavesMembers
  · exact (quiet_insertEntities _ _).leavesMembers

theorem leavesMembers_markSuperseded (old new : MemoryId) :
    LeavesMembers (markSuperseded old new) := by
  refine Within.bind Within.reads fun found => ?_
  cases found with
  | none => exact Within.pure
  | some existing =>
      refine Within.bind Within.require fun _ => ?_
      refine Within.bind ?_ fun _ => Within.bind Within.require fun _ => Within.pure
      refine Within.bind Within.reads fun _ => ?_
      exact Within.bind (Within.writes fun _ => rfl) fun _ => Within.pure

theorem leavesMembers_insertPreparedWithSupersession (dimensions : Nat)
    (item : MemoryWithEmbedding) (supersedes : Option MemoryId) (audit : Option AuditDraft) :
    LeavesMembers (insertPreparedWithSupersession dimensions item supersedes audit) := by
  refine Within.bind (Within.onSome fun _ _ => (readsOnly_validateSupersededExists _).within)
    fun _ => ?_
  refine Within.bind (leavesMembers_insertPrepared _ _) fun _ => ?_
  refine Within.bind (Within.onSome fun _ _ => ?_) fun _ => Within.onSome fun _ _ => ?_
  · exact Within.bind (leavesMembers_markSuperseded _ _) fun _ => Within.pure
  · exact (quiet_insertAuditDraft _ _).leavesMembers

theorem leavesMembers_storeItemWithMetadata (dimensions : Nat) (item : MemoryWithEmbedding)
    (supersedes : Option MemoryId) (metadata : MemoryMetadata) (audit : Option AuditDraft)
    (now : Instant) :
    LeavesMembers (storeItemWithMetadata dimensions item supersedes metadata audit now) :=
  Within.bind (leavesMembers_insertPreparedWithSupersession _ _ _ _) fun _ =>
    (quiet_upsertMetadata _ _).leavesMembers

theorem LinksShrink.leavesContexts {α : Type} {body : StoreM α}
    (inner : Within LinksShrink body) : LeavesContexts body :=
  inner.mono fun _ _ shrink => shrink.contextTables

variable [Host]

theorem leavesContexts_storeGovernedItem (dimensions : Nat) (request : GovernedItem)
    (principal : String) (now : Instant) :
    LeavesContexts (storeGovernedItem dimensions request principal now) :=
  Within.bind (leavesMembers_storeItemWithMetadata _ _ _ _ _ _).leavesContexts fun _ =>
    (leavesLinks_insertMemoryContexts _ _ _ _ _ _ _).leavesContexts

theorem leavesContexts_storeWithMetadataContexts (dimensions : Nat) (request : GovernedItem)
    (now : Instant) : LeavesContexts (storeWithMetadataContexts dimensions request now) := by
  refine Within.bind (readsOnly_validateGovernedItem request).within fun _ => ?_
  exact Within.bind (leavesContexts_storeGovernedItem _ _ _ _) fun _ => Within.pure

omit [Host] in
theorem leavesMembers_storeBatch (dimensions : Nat) (items : List MemoryWithEmbedding)
    (audits : Option (List AuditDraft)) :
    LeavesMembers (storeBatch dimensions items audits) := by
  refine Within.bind (Within.onSome fun _ _ => Within.require) fun _ => ?_
  refine Within.bind (Within.forM fun _ _ => ?_) fun _ => Within.pure
  exact Within.bind (leavesMembers_insertPrepared _ _) fun _ =>
    Within.onSome fun _ _ => (quiet_insertAuditDraft _ _).leavesMembers

omit [Host] in
theorem leavesMembers_storeBatchWithSupersession (dimensions : Nat)
    (items : List MemoryWithEmbedding) (supersedes : List (Option MemoryId))
    (audits : Option (List AuditDraft)) :
    LeavesMembers (storeBatchWithSupersession dimensions items supersedes audits) := by
  refine Within.bind Within.require fun _ => ?_
  refine Within.bind (Within.onSome fun _ _ => Within.require) fun _ => ?_
  refine Within.bind (Within.forM fun _ _ => ?_) fun _ => Within.pure
  exact leavesMembers_insertPreparedWithSupersession _ _ _ _

omit [Host] in
theorem leavesMembers_storeBatchWithMetadata (dimensions : Nat)
    (items : List MemoryWithEmbedding) (supersedes : List (Option MemoryId))
    (metadata : List MemoryMetadata) (audits : Option (List AuditDraft)) (now : Instant) :
    LeavesMembers
      (storeBatchWithMetadata dimensions items supersedes metadata audits now) := by
  refine Within.bind Within.require fun _ => ?_
  refine Within.bind Within.require fun _ => ?_
  refine Within.bind (Within.onSome fun _ _ => Within.require) fun _ => ?_
  refine Within.bind (Within.forM fun _ _ => Within.require) fun _ => ?_
  refine Within.bind (Within.forM fun _ _ => ?_) fun _ => Within.pure
  exact leavesMembers_storeItemWithMetadata _ _ _ _ _ _

theorem leavesContexts_storeBatchWithMetadataContexts (dimensions : Nat)
    (items : List MemoryWithEmbedding) (supersedes : List (Option MemoryId))
    (metadata : List MemoryMetadata) (contextIds : List (List ContextId))
    (audits : List AuditDraft) (contextAudits : List ContextAuditDraft) (now : Instant) :
    LeavesContexts (storeBatchWithMetadataContexts dimensions items supersedes metadata
      contextIds audits contextAudits now) := by
  refine Within.bind Within.require fun _ => ?_
  refine Within.bind (Within.mapM fun _ _ => (readsOnly_validateGovernedItem _).within)
    fun _ => ?_
  refine Within.bind (Within.forM fun _ _ => ?_) fun _ => Within.pure
  exact leavesContexts_storeGovernedItem _ _ _ _

omit [Host] in
theorem leavesMembers_markSupersededByAuthorized (id supersededBy : MemoryId)
    (principal : String) (audit : Option AuditDraft) :
    LeavesMembers (markSupersededByAuthorized id supersededBy principal audit) := by
  refine Within.bind Within.reads fun found => ?_
  cases found with
  | none => exact Within.pure
  | some existing =>
      dsimp only
      split
      · refine Within.bind (leavesMembers_markSuperseded _ _) fun _ => ?_
        exact Within.bind (Within.onSome fun _ _ => (quiet_insertAuditDraft _ _).leavesMembers)
          fun _ => Within.pure
      · exact Within.pure

omit [Host] in
theorem leavesMembers_markSupersededIfUnchanged (member representative : ConsolidationSnapshot)
    (principal : String) (audit : AuditDraft) :
    LeavesMembers (markSupersededIfUnchanged member representative principal audit) := by
  refine Within.bind Within.require fun _ => ?_
  refine Within.bind Within.require fun _ => ?_
  refine Within.bind Within.reads fun foundMember => ?_
  cases foundMember with
  | none => exact Within.pure
  | some existingMember =>
      refine Within.bind Within.reads fun foundRepresentative => ?_
      cases foundRepresentative with
      | none => exact Within.pure
      | some existingRepresentative =>
          dsimp only
          split
          · refine Within.bind Within.reads fun _ => ?_
            refine Within.bind Within.reads fun _ => ?_
            refine Within.bind Within.require fun _ => ?_
            refine Within.bind (leavesMembers_markSuperseded _ _) fun _ => ?_
            exact Within.bind (Within.onSome fun _ _ => (quiet_insertAuditDraft _ _).leavesMembers)
              fun _ => Within.pure
          · exact Within.pure

variable {newRow : ContextRow → Prop}

theorem evolves_applyReassignScope (admits : AdmitsAdapter newRow) (newId : ContextId)
    (fromScope toScope : String) (origin : Option String) (principal : String)
    (audit : Option AuditDraft) (now : Instant) :
    Within (ContextsEvolve newRow)
      (applyReassignScope newId fromScope toScope origin principal audit now) := by
  refine Within.bind Within.reads fun _ => ?_
  split
  · exact Within.pure
  · refine Within.bind (evolves_resolveOrCreatePrivateLegacyContext admits _ _ _ _) fun _ => ?_
    refine Within.bind Within.reads fun _ => ?_
    refine Within.bind Within.expect fun _ => ?_
    refine Within.bind (Within.forM fun _ _ => ?_) fun _ => Within.pure
    exact (leavesLinks_reassignMemory _ _ _ _ _ _ _).leavesContexts.evolves

/-! ## Commands and steps -/

/-- Every context draft of a command becomes a row that may be inserted. -/
def StoreCommand.DraftsMeet (newRow : ContextRow → Prop) (now : Instant) :
    StoreCommand → Prop
  | .createContext draft _ => newRow (draft.toRow now)
  | _ => True

omit [Host] in
/-- Whether a command may insert contexts of legacy keys. -/
def StoreCommand.adaptsScopes : StoreCommand → Bool
  | .registerScope _ _ _ => true
  | .reassignScope _ _ _ _ _ _ => true
  | _ => false

theorem evolves_discard {α : Type} {body : StoreM α}
    (inner : LeavesContexts body) :
    Within (ContextsEvolve newRow) (StoreCommand.discard body) :=
  within_discard inner.evolves

/-- Every command evolves the contexts. -/
theorem evolves_body {handle : StoreHandle} {now : Instant} {command : StoreCommand}
    (admits : command.adaptsScopes = true → AdmitsAdapter newRow)
    (drafts : command.DraftsMeet newRow now) :
    Within (ContextsEvolve newRow) (command.body handle now) := by
  cases command with
  | store item audit =>
      apply evolves_discard
      refine Within.bind (leavesMembers_insertPrepared _ _).leavesContexts fun _ => ?_
      exact Within.bind (Within.onSome fun _ _ => (quiet_insertAuditDraft _ _).leavesLinks.leavesContexts) fun _ =>
        Within.pure
  | storeWithSupersession item supersedes audit =>
      exact evolves_discard (Within.bind (leavesMembers_insertPreparedWithSupersession _ _ _ _).leavesContexts
        fun _ => Within.pure)
  | storeWithMetadata item supersedes metadata audit =>
      apply evolves_discard
      refine Within.bind Within.require fun _ => ?_
      exact Within.bind (leavesMembers_storeItemWithMetadata _ _ _ _ _ _).leavesContexts fun _ => Within.pure
  | storeWithMetadataContexts request =>
      exact evolves_discard (leavesContexts_storeWithMetadataContexts _ _ _)
  | storeBatch items audits => exact evolves_discard (leavesMembers_storeBatch _ _ _).leavesContexts
  | storeBatchWithSupersession items supersedes audits =>
      exact evolves_discard (leavesMembers_storeBatchWithSupersession _ _ _ _).leavesContexts
  | storeBatchWithMetadata items supersedes metadata audits =>
      exact evolves_discard (leavesMembers_storeBatchWithMetadata _ _ _ _ _ _).leavesContexts
  | storeBatchWithMetadataContexts items supersedes metadata contextIds audits contextAudits =>
      exact evolves_discard (leavesContexts_storeBatchWithMetadataContexts _ _ _ _ _ _ _ _)
  | update id changes => exact evolves_discard (quiet_applyUpdate _ _ _).leavesLinks.leavesContexts
  | updateAuthorized id changes principal audit =>
      exact evolves_discard (quiet_updateAuthorized _ _ _ _ _).leavesLinks.leavesContexts
  | updateAuthorizedWithMetadata id changes patch principal audit =>
      exact evolves_discard (quiet_updateAuthorizedWithMetadata _ _ _ _ _ _).leavesLinks.leavesContexts
  | updateAuthorizedWithMetadataContexts id changes patch contextIds principal audit
      contextAudit =>
      exact evolves_discard
        (leavesLinks_updateAuthorizedWithMetadataContexts _ _ _ _ _ _ _ _).leavesContexts
  | updateIfUnmodified id expectedRevision changes patch contextIds embedding principal audit
      contextAudit =>
      exact evolves_discard
        (leavesLinks_updateAuthorizedIfUnmodified _ _ _ _ _ _ _ _ _ _ _ _).leavesContexts
  | bulkUpdate ids changes principal audit =>
      exact evolves_discard (quiet_bulkUpdateIds _ _ _ _ _).leavesLinks.leavesContexts
  | delete id => exact evolves_discard (LinksShrink.leavesContexts (within_applyDelete shrinks_entombMemory _ _))
  | deleteAuthorized id principal audit =>
      exact evolves_discard (LinksShrink.leavesContexts (within_deleteAuthorized shrinks_entombMemory shrinks_insertAuditDraft _ _ _ _))
  | deleteIfUnmodified id expectedRevision principal audit =>
      exact evolves_discard
        (LinksShrink.leavesContexts (within_deleteAuthorizedIfUnmodified shrinks_entombMemory shrinks_insertAuditDraft _ _ _ _ _))
  | bulkDelete ids principal audit =>
      exact evolves_discard (LinksShrink.leavesContexts (within_bulkDeleteIds shrinks_entombMemory shrinks_insertAuditDraft _ _ _ _))
  | evictExpired scope audit =>
      exact evolves_discard (LinksShrink.leavesContexts (within_evictExpired shrinks_entombMemory shrinks_insertAuditDraft _ _ _))
  | markSupersededBy id supersededBy =>
      exact evolves_discard (leavesMembers_markSuperseded _ _).leavesContexts
  | markSupersededByAuthorized id supersededBy principal audit =>
      exact evolves_discard (leavesMembers_markSupersededByAuthorized _ _ _ _).leavesContexts
  | markSupersededIfUnchanged member representative principal audit =>
      exact evolves_discard (leavesMembers_markSupersededIfUnchanged _ _ _ _).leavesContexts
  | recordSearchImpression ids =>
      exact (quiet_recordSearchImpression _ _).leavesLinks.leavesContexts.evolves
  | recordMemoryUse decayMass ids principal eventWeight =>
      exact evolves_discard (quiet_recordMemoryUse _ _ _ _ _).leavesLinks.leavesContexts
  | writeAuditEntry id audit => exact (quiet_insertAuditDraft _ _).leavesLinks.leavesContexts.evolves
  | claimForReembed principal limit token =>
      exact evolves_discard (quiet_claimForReembed _ _ _ _).leavesLinks.leavesContexts
  | releaseEmbeddingClaim id expectedRevision token =>
      exact evolves_discard
        (LeavesLinks.leavesContexts (Quiet.leavesLinks (quiet_updateMemoryWhere fun _ => rfl)))
  | setEmbedding id embedding expectedRevision =>
      exact (quiet_setEmbedding _ _ _ _ _).leavesLinks.leavesContexts.evolves
  | verifyEmbeddingProfile profile =>
      exact (quiet_verifyEmbeddingProfile _).leavesLinks.leavesContexts.evolves
  | reindexEmbeddings profile =>
      exact (quiet_reindexEmbeddings _).leavesLinks.leavesContexts.evolves
  | upsertMetadata metadata audit =>
      exact (quiet_upsertMetadataAudited _ _ _).leavesLinks.leavesContexts.evolves
  | migrateMetadata dryRun audit =>
      exact evolves_discard (quiet_migrateMetadata _ _ _).leavesLinks.leavesContexts
  | registerScope newId scope principal =>
      exact evolves_registerLegacyScopeContext (admits rfl) _ _ _ _
  | reassignScope newId fromScope toScope origin principal audit =>
      exact within_discard (evolves_applyReassignScope (admits rfl) _ _ _ _ _ _ _)
  | replaceMemoryContexts id contextIds principal audit =>
      exact evolves_discard (leavesLinks_replaceMemoryContexts _ _ _ _ _).leavesContexts
  | createContext draft audit => exact within_discard (evolves_createContext drafts)
  | setContextParent id parentId principal audit => exact evolves_setContextParent _ _ _ _ _
  | setContextLifecycle id lifecycle principal audit =>
      exact evolves_setContextLifecycle _ _ _ _ _
  | grantContextUse id grantee principal audit =>
      exact (leavesContexts_grantContextUse _ _ _ _ _).evolves
  | revokeContextUse id grantee principal audit =>
      exact (leavesContexts_revokeContextUse _ _ _ _ _).evolves
  | replaceContextGrants id grantees principal audit =>
      exact (leavesContexts_replaceContextGrants _ _ _ _ _).evolves
  | updateContextDefinition id patch principal audit =>
      exact evolves_updateContextDefinition _ _ _ _ _
  | upsertContextKind kind displayName enabled principal audit =>
      exact evolves_upsertContextKind _ _ _ _ _ _
  | upsertContextKindPolicy layer policyPrincipal kind policy principal audit =>
      exact (leavesContexts_upsertContextKindPolicy _ _ _ _ _ _ _).evolves
  | upsertContextAnchorPolicy anchorId policyPrincipal policy principal audit =>
      exact (leavesContexts_upsertContextAnchorPolicy _ _ _ _ _ _).evolves
  | rollbackUnreferencedLegacyContext id principal =>
      exact within_discard (evolves_rollbackUnreferencedLegacyContext _ _)

/-- A relation that holds across every successful body holds across every step. -/
theorem storeStep_within {relation : Db → Db → Prop} [Std.Refl relation] {db next : Db}
    {call : StoreCall} (inner : Within relation (call.command.body call.handle call.now))
    (stepEq : storeStep db call = some next) : relation db next := by
  rcases (storeStep_ran stepEq).2 with rfl | ran
  · exact Std.Refl.refl next
  · exact inner ran

/-- Every step evolves the contexts. -/
theorem storeStep_evolves {db next : Db} {call : StoreCall}
    (admits : call.command.adaptsScopes = true → AdmitsAdapter newRow)
    (drafts : call.command.DraftsMeet newRow call.now)
    (stepEq : storeStep db call = some next) : ContextsEvolve newRow db next :=
  storeStep_within (evolves_body admits drafts) stepEq

end LocalHold
