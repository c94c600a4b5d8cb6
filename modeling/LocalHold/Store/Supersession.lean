import LocalHold.Store.ContextRuns

/-!
# The supersession forest

Links point to stored memories and never lead back.  Storing adds a memory
without a link, a mark links an unmarked memory to another unmarked one, and
deleting a memory clears the links to it.  A link that is set stays until the
memory it names is deleted.
-/

namespace LocalHold

open Relational Hierarchy Transition Transition.Txn

/-- The memory that supersedes a memory. -/
def Db.successor (db : Db) (id : MemoryId) : Option MemoryId :=
  (db.link id).join

/-- Every link names a stored memory, and following links never leads back. -/
structure Db.SupersessionForest (db : Db) : Prop where
  stored : ∀ id target, db.link id = some (some target) → db.link target ≠ none
  acyclic : Acyclic db.successor

/-- Between two states a link stays, or disappears with its memory or with the
memory it names. -/
def LinksStable (db next : Db) : Prop :=
  ∀ id target, db.link id = some (some target) → next.link id ≠ some (some target) →
    next.link id = none ∨ (next.link id = some none ∧ next.link target = none)

theorem Db.successor_eq_some_iff {db : Db} {id target : MemoryId} :
    db.successor id = some target ↔ db.link id = some (some target) := by
  rw [Db.successor, Option.join_eq_some_iff]

theorem Db.successor_of_root {db : Db} {id : MemoryId} (root : db.link id = some none) :
    db.successor id = none := by
  rw [Db.successor, root]
  rfl

/-! ## Changes -/

section Changes

variable {db next : Db}

theorem Db.SupersessionForest.of_link (forest : db.SupersessionForest)
    (links : next.link = db.link) : next.SupersessionForest := by
  have successors : next.successor = db.successor := by
    funext id
    rw [Db.successor, Db.successor, links]
  refine ⟨?_, ?_⟩
  · rw [links]
    exact forest.stored
  · rw [successors]
    exact forest.acyclic

theorem Db.SupersessionForest.growth (forest : db.SupersessionForest)
    (growth : LinkGrowth db next) : next.SupersessionForest := by
  cases growth with
  | keep links => exact forest.of_link links
  | insert id fresh links =>
      constructor
      · intro other target linked
        rw [links] at linked ⊢
        split at linked
        · cases linked
        · split
          · exact Option.some_ne_none none
          · exact forest.stored other target linked
      · refine forest.acyclic.mono fun other target linked => ?_
        rw [Db.successor_eq_some_iff, links] at linked
        rw [Db.successor_eq_some_iff]
        split at linked
        · cases linked
        · exact linked
  | mark old new distinct unmarked root links =>
      constructor
      · intro other target linked
        rw [links] at linked ⊢
        split at linked
        · cases linked
          rw [if_neg distinct.symm, root]
          exact Option.some_ne_none none
        · split
          · exact Option.some_ne_none (some new)
          · exact forest.stored other target linked
      · refine forest.acyclic.relink (Db.successor_eq_some_iff.mpr ?_) ?_ distinct
          (not_above_of_parent_none (Db.successor_of_root root))
        · rw [links, if_pos rfl]
        · intro other different
          rw [Db.successor, Db.successor, links, if_neg different]

theorem Db.SupersessionForest.loss (forest : db.SupersessionForest) (loss : LinkLoss db next) :
    next.SupersessionForest := by
  cases loss with
  | keep frame => exact forest.of_link (Prod.mk.inj frame).2
  | delete id _ links =>
      have survives : ∀ other target, next.link other = some (some target) →
          db.link other = some (some target) ∧ target ≠ id := by
        intro other target linked
        rw [links] at linked
        split at linked
        · cases linked
        · obtain ⟨before, stored, cleared⟩ := Option.map_eq_some_iff.mp linked
          split at cleared
          · cases cleared
          · rename_i different
            subst cleared
            exact ⟨stored, fun same => different (by rw [same])⟩
      constructor
      · intro other target linked
        obtain ⟨before, different⟩ := survives other target linked
        rw [links, if_neg different, ne_eq, Option.map_eq_none_iff]
        exact forest.stored other target before
      · refine forest.acyclic.mono fun other target linked => ?_
        rw [Db.successor_eq_some_iff] at linked ⊢
        exact (survives other target linked).1

/-- Growing links keep every link that is set. -/
theorem LinksGrow.link_eq (grow : LinksGrow db next) {id target : MemoryId}
    (linked : db.link id = some (some target)) : next.link id = some (some target) := by
  induction grow with
  | refl => exact linked
  | tail _ growth inductionHypothesis =>
      cases growth with
      | keep links =>
          rw [links]
          exact inductionHypothesis
      | insert fresh absent links =>
          rw [links]
          split
          · rename_i here
            rw [here, absent] at inductionHypothesis
            cases inductionHypothesis
          · exact inductionHypothesis
      | mark old new _ unmarked _ links =>
          rw [links]
          split
          · rename_i here
            rw [here, unmarked] at inductionHypothesis
            cases inductionHypothesis
          · exact inductionHypothesis

theorem LinksGrow.stable (grow : LinksGrow db next) : LinksStable db next :=
  fun _ _ linked changed => absurd (grow.link_eq linked) changed

/-- A memory that is gone stays gone while links shrink. -/
theorem LinksShrink.link_eq_none (shrink : LinksShrink db next) {id : MemoryId}
    (gone : db.link id = none) : next.link id = none := by
  induction shrink with
  | refl => exact gone
  | tail _ loss inductionHypothesis =>
      cases loss with
      | keep frame =>
          rw [(Prod.mk.inj frame).2]
          exact inductionHypothesis
      | delete deleted _ links =>
          rw [links, inductionHypothesis]
          split <;> rfl

theorem LinksShrink.stable (shrink : LinksShrink db next) : LinksStable db next := by
  induction shrink with
  | refl => exact fun _ _ linked changed => absurd linked changed
  | @tail middle next _ loss inductionHypothesis =>
      intro id target linked changed
      have further : LinksShrink middle next := Relation.ReflTransGen.single loss
      by_cases kept : middle.link id = some (some target)
      · cases loss with
        | keep frame =>
            rw [(Prod.mk.inj frame).2] at changed
            exact absurd kept changed
        | delete deleted _ links =>
            rw [links, kept] at changed
            rw [links, links target, kept]
            split at changed
            · rename_i here
              exact Or.inl (if_pos here)
            · rename_i different
              rw [if_neg different]
              by_cases named : target = deleted
              · rw [if_pos named, Option.map_some, if_pos (by rw [named])]
                exact Or.inr ⟨rfl, rfl⟩
              · rw [Option.map_some, if_neg fun same => named (Option.some.inj same)] at changed
                exact absurd rfl changed
      · rcases inductionHypothesis id target linked kept with gone | ⟨cleared, targetGone⟩
        · exact Or.inl (further.link_eq_none gone)
        · have targetGone := further.link_eq_none targetGone
          cases loss with
          | keep frame =>
              rw [(Prod.mk.inj frame).2]
              rw [(Prod.mk.inj frame).2] at targetGone
              exact Or.inr ⟨cleared, targetGone⟩
          | delete deleted _ links =>
              rw [links id, cleared]
              split
              · exact Or.inl rfl
              · exact Or.inr ⟨rfl, targetGone⟩

theorem LinksGrow.forest (grow : LinksGrow db next) (forest : db.SupersessionForest) :
    next.SupersessionForest := by
  induction grow with
  | refl => exact forest
  | tail _ growth inductionHypothesis => exact inductionHypothesis.growth growth

theorem LinksShrink.forest (shrink : LinksShrink db next) (forest : db.SupersessionForest) :
    next.SupersessionForest := by
  induction shrink with
  | refl => exact forest
  | tail _ loss inductionHypothesis => exact inductionHypothesis.loss loss

end Changes

/-! ## Commands of clients -/

/-- The links grow or shrink. -/
def LinksChange (db next : Db) : Prop :=
  LinksGrow db next ∨ LinksShrink db next

instance : Std.Refl LinksChange :=
  ⟨fun _ => Or.inl Relation.ReflTransGen.refl⟩

/-- The commands that clients send: memories are stored without a link, and
marks come from consolidation only. -/
def StoreCommand.fromClient : StoreCommand → Bool
  | .markSupersededBy _ _ => false
  | .markSupersededByAuthorized _ _ _ _ => false
  | .markSupersededIfUnchanged _ _ _ _ => false
  | command => command.storedItems.all fun item => item.memory.supersededBy.isNone

section Commands

variable {α : Type} {body : StoreM α}

theorem changes_of_grows (inner : Within LinksGrow body) : Within LinksChange body :=
  inner.mono fun _ _ => Or.inl

theorem changes_discard_of_grows (inner : Within LinksGrow body) :
    Within LinksChange (StoreCommand.discard body) :=
  within_discard (changes_of_grows inner)

theorem changes_discard_of_shrinks (inner : Within LinksShrink body) :
    Within LinksChange (StoreCommand.discard body) :=
  within_discard (inner.mono fun _ _ => Or.inr)

variable [Host]

theorem grows_applyReassignScope (newId : ContextId) (fromScope toScope : String)
    (origin : Option String) (principal : String) (audit : Option AuditDraft) (now : Instant) :
    Within LinksGrow
      (applyReassignScope newId fromScope toScope origin principal audit now) := by
  refine Within.bind Within.reads fun _ => ?_
  split
  · exact Within.pure
  · refine Within.bind (grows_of_leavesMemories
      (leavesMemories_resolveOrCreatePrivateLegacyContext _ _ _ _)) fun _ => ?_
    refine Within.bind Within.reads fun _ => ?_
    refine Within.bind Within.expect fun _ => ?_
    refine Within.bind (Within.forM fun _ _ => ?_) fun _ => Within.pure
    exact (leavesLinks_reassignMemory _ _ _ _ _ _ _).grows

/-- Every command of a client grows the links or shrinks them. -/
theorem changes_body {command : StoreCommand} (fromClient : command.fromClient = true)
    (handle : StoreHandle) (now : Instant) :
    Within LinksChange (command.body handle now) := by
  have roots : ∀ item ∈ command.storedItems, item.memory.supersededBy = none := by
    intro item itemMem
    cases command <;>
      first
        | exact absurd itemMem List.not_mem_nil
        | exact Option.isNone_iff_eq_none.mp (List.all_eq_true.mp fromClient item itemMem)
  cases command with
  | store item audit =>
      exact changes_discard_of_grows (grows_store (roots _ List.mem_cons_self) _)
  | storeWithSupersession item supersedes audit =>
      exact changes_discard_of_grows (grows_storeWithSupersession (roots _ List.mem_cons_self) _ _)
  | storeWithMetadata item supersedes metadata audit =>
      exact changes_discard_of_grows (grows_storeWithMetadata (roots _ List.mem_cons_self) _ _ _ _)
  | storeWithMetadataContexts request =>
      exact changes_discard_of_grows (grows_storeWithMetadataContexts (roots _ List.mem_cons_self) _)
  | storeBatch items audits =>
      exact changes_discard_of_grows (grows_storeBatch roots _)
  | storeBatchWithSupersession items supersedes audits =>
      exact changes_discard_of_grows (grows_storeBatchWithSupersession roots _ _)
  | storeBatchWithMetadata items supersedes metadata audits =>
      exact changes_discard_of_grows (grows_storeBatchWithMetadata roots _ _ _ _)
  | storeBatchWithMetadataContexts items supersedes metadata contextIds audits contextAudits =>
      exact changes_discard_of_grows (grows_storeBatchWithMetadataContexts roots _ _ _ _ _ _)
  | update id changes =>
      exact changes_discard_of_grows (quiet_applyUpdate _ _ _).leavesLinks.grows
  | updateAuthorized id changes principal audit =>
      exact changes_discard_of_grows (quiet_updateAuthorized _ _ _ _ _).leavesLinks.grows
  | updateAuthorizedWithMetadata id changes patch principal audit =>
      exact changes_discard_of_grows (quiet_updateAuthorizedWithMetadata _ _ _ _ _ _).leavesLinks.grows
  | updateAuthorizedWithMetadataContexts id changes patch contextIds principal audit
      contextAudit =>
      exact changes_discard_of_grows (leavesLinks_updateAuthorizedWithMetadataContexts _ _ _ _ _ _ _ _).grows
  | updateIfUnmodified id expectedRevision changes patch contextIds embedding principal audit
      contextAudit =>
      exact changes_discard_of_grows (leavesLinks_updateAuthorizedIfUnmodified _ _ _ _ _ _ _ _ _ _ _ _).grows
  | bulkUpdate ids changes principal audit =>
      exact changes_discard_of_grows (quiet_bulkUpdateIds _ _ _ _ _).leavesLinks.grows
  | recordSearchImpression ids => exact changes_of_grows (quiet_recordSearchImpression _ _).leavesLinks.grows
  | recordMemoryUse decayMass ids principal eventWeight =>
      exact changes_discard_of_grows (quiet_recordMemoryUse _ _ _ _ _).leavesLinks.grows
  | writeAuditEntry id audit => exact changes_of_grows (quiet_insertAuditDraft _ _).leavesLinks.grows
  | claimForReembed principal limit token =>
      exact changes_discard_of_grows (quiet_claimForReembed _ _ _ _).leavesLinks.grows
  | releaseEmbeddingClaim id expectedRevision token =>
      exact changes_discard_of_grows (LeavesLinks.grows (Quiet.leavesLinks (quiet_updateMemoryWhere fun _ => rfl)))
  | setEmbedding id embedding expectedRevision => exact changes_of_grows (quiet_setEmbedding _ _ _ _ _).leavesLinks.grows
  | verifyEmbeddingProfile profile => exact changes_of_grows (quiet_verifyEmbeddingProfile _).leavesLinks.grows
  | reindexEmbeddings profile => exact changes_of_grows (quiet_reindexEmbeddings _).leavesLinks.grows
  | upsertMetadata metadata audit => exact changes_of_grows (quiet_upsertMetadataAudited _ _ _).leavesLinks.grows
  | migrateMetadata dryRun audit =>
      exact changes_discard_of_grows (quiet_migrateMetadata _ _ _).leavesLinks.grows
  | replaceMemoryContexts id contextIds principal audit =>
      exact changes_discard_of_grows (leavesLinks_replaceMemoryContexts _ _ _ _ _).grows
  | delete id => exact changes_discard_of_shrinks (within_applyDelete shrinks_entombMemory _ _)
  | deleteAuthorized id principal audit => exact changes_discard_of_shrinks (within_deleteAuthorized shrinks_entombMemory shrinks_insertAuditDraft _ _ _ _)
  | deleteIfUnmodified id expectedRevision principal audit => exact changes_discard_of_shrinks (within_deleteAuthorizedIfUnmodified shrinks_entombMemory shrinks_insertAuditDraft _ _ _ _ _)
  | bulkDelete ids principal audit => exact changes_discard_of_shrinks (within_bulkDeleteIds shrinks_entombMemory shrinks_insertAuditDraft _ _ _ _)
  | evictExpired scope audit => exact changes_discard_of_shrinks (within_evictExpired shrinks_entombMemory shrinks_insertAuditDraft _ _ _)
  | markSupersededBy id supersededBy => cases fromClient
  | markSupersededByAuthorized id supersededBy principal audit => cases fromClient
  | markSupersededIfUnchanged member representative principal audit => cases fromClient
  | reassignScope newId fromScope toScope origin principal audit =>
      exact changes_discard_of_grows (grows_applyReassignScope _ _ _ _ _ _ _)
  | registerScope newId scope principal =>
      exact changes_of_grows (grows_of_leavesMemories (leavesMemories_registerLegacyScopeContext _ _ _ _))
  | createContext draft audit =>
      exact changes_discard_of_grows (grows_of_leavesMemories (leavesMemories_createContext _ _ _))
  | setContextParent id parentId principal audit =>
      exact changes_of_grows (grows_of_leavesMemories (leavesMemories_setContextParent _ _ _ _ _))
  | setContextLifecycle id lifecycle principal audit =>
      exact changes_of_grows (grows_of_leavesMemories (leavesMemories_setContextLifecycle _ _ _ _ _))
  | grantContextUse id grantee principal audit =>
      exact changes_of_grows (grows_of_leavesMemories (leavesMemories_grantContextUse _ _ _ _ _))
  | revokeContextUse id grantee principal audit =>
      exact changes_of_grows (grows_of_leavesMemories (leavesMemories_revokeContextUse _ _ _ _ _))
  | replaceContextGrants id grantees principal audit =>
      exact changes_of_grows (grows_of_leavesMemories (leavesMemories_replaceContextGrants _ _ _ _ _))
  | updateContextDefinition id patch principal audit =>
      exact changes_of_grows (grows_of_leavesMemories (leavesMemories_updateContextDefinition _ _ _ _ _))
  | upsertContextKind kind displayName enabled principal audit =>
      exact changes_of_grows (grows_of_leavesMemories (leavesMemories_upsertContextKind _ _ _ _ _ _))
  | upsertContextKindPolicy layer policyPrincipal kind policy principal audit =>
      exact changes_of_grows (grows_of_leavesMemories (leavesMemories_upsertContextKindPolicy _ _ _ _ _ _ _))
  | upsertContextAnchorPolicy anchorId policyPrincipal policy principal audit =>
      exact changes_of_grows (grows_of_leavesMemories (leavesMemories_upsertContextAnchorPolicy _ _ _ _ _ _))
  | rollbackUnreferencedLegacyContext id principal =>
      exact changes_discard_of_grows (grows_of_leavesMemories (leavesMemories_rollbackUnreferencedLegacyContext _ _))

end Commands

end LocalHold
