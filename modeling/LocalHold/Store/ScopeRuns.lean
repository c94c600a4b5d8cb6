import LocalHold.Store.ContextKeys
import LocalHold.Store.ScopeWrites

/-!
# The compatibility scope along runs

Every command keeps the copies of the scope right, except the stores without
contexts, which write whatever scope they are given.
-/

namespace LocalHold

open Relational Transition Transition.Txn

/-! ## Contexts -/

/-- Where every context with members keeps its key, no scope changes. -/
theorem ScopeTouches.of_contextKeys {db next : Db} {touched : MemoryId → Prop}
    (memories : next.memories = db.memories) (metadata : next.metadata = db.metadata)
    (memberships : next.memoryContexts = db.memoryContexts)
    (keys : db.Anchored → ∀ row ∈ db.memoryContexts,
      next.contextKey row.contextId = db.contextKey row.contextId) :
    ScopeTouches touched db next := by
  intro anchored
  have keys := keys anchored
  refine ⟨⟨?_, ?_⟩, fun id _ => ?_⟩
  · rw [memories, memberships]
    intro row rowMem
    obtain ⟨key, keyed⟩ := Db.exists_contextKey (anchored.memberships row rowMem).2
    rw [← keys row rowMem] at keyed
    exact ⟨(anchored.memberships row rowMem).1, Db.contains_of_contextKey keyed⟩
  · rw [memories, metadata]
    exact anchored.metadata
  · have rows : next.membershipsOf id = db.membershipsOf id := by
      rw [Db.membershipsOf, Db.membershipsOf, memberships]
    have key : next.compatibilityScopeKey id = db.compatibilityScopeKey id := by
      rw [Db.compatibilityScopeKey_eq, Db.compatibilityScopeKey_eq, rows]
      cases primary : (db.membershipsOf id).find? fun row => decide (row.ordinal = 0) with
      | none => rfl
      | some row =>
          have rowMem : row ∈ db.memoryContexts :=
            (Table.mem_select_iff.mp (List.mem_of_find?_eq_some primary)).1
          have same := keys row rowMem
          rw [Db.contextKey, Db.contextKey] at same
          rw [Option.bind_some, Option.bind_some, same]
    rw [Db.scopeView, Db.scopeView, memories, metadata, rows, key]

/-- A command on contexts that loses no key leaves every scope. -/
theorem keepsScopes_of_keysGrow {α : Type} {body : StoreM α} (leaves : LeavesMemories body)
    (grows : Within KeysGrow body) : KeepsScopes body := by
  intro db value next ran
  have same := leaves ran
  have keys := grows ran
  simp only [Keeps, Db.memoryTables, Prod.mk.injEq] at same
  obtain ⟨memories, _, metadata, memberships, _⟩ := same
  refine ScopeTouches.of_contextKeys memories metadata memberships fun anchored row rowMem => ?_
  obtain ⟨key, keyed⟩ := Db.exists_contextKey (anchored.memberships row rowMem).2
  rw [keys row.contextId key keyed, keyed]

/-- A context that may be rolled back has no members. -/
theorem Db.memberless_of_unreferencedLegacyContext {db : Db} {id : ContextId}
    {principal : String} (removable : db.unreferencedLegacyContext id principal = true) :
    ∀ row ∈ db.memoryContexts, row.contextId ≠ id := by
  intro row rowMem attached
  simp only [Db.unreferencedLegacyContext, Bool.and_eq_true, Bool.not_eq_true',
    List.any_eq_false] at removable
  exact removable.1.1.1.1.1.1.1.1.1.1.2 row rowMem (by simpa using attached)

theorem keepsScopes_rollbackUnreferencedLegacyContext (id : ContextId) (principal : String) :
    KeepsScopes (rollbackUnreferencedLegacyContext id principal) := by
  intro db value next ran
  have ran := of_reads_bind ran
  split at ran
  · rename_i removable
    obtain ⟨_, _, written, done⟩ := bind_eq_ok.mp ran
    cases writes_eq_ok.mp written
    cases pure_eq_ok.mp done
    refine ScopeTouches.of_contextKeys rfl rfl rfl fun _ row rowMem => ?_
    have kept := Db.memberless_of_unreferencedLegacyContext removable row rowMem
    simp only [Db.contextKey, Table.find?_delete, if_neg kept]
  · cases pure_eq_ok.mp ran
    exact Std.Refl.refl db

/-! ## Deletion -/

theorem restores_dropMemory (id : MemoryId) (db : Db) : ScopeRestored id db (db.dropMemory id) := by
  have contexts : (db.dropMemory id).contexts = db.contexts := by
    simp only [Db.dropMemory, Db.dropEmbedding]
    split <;> rfl
  have metadata : ∀ other, (db.dropMemory id).metadata.find? other =
      if other = id then none else db.metadata.find? other := by
    intro other
    simp only [Db.dropMemory, Table.find?_delete]
  have memberships : ∀ row, row ∈ (db.dropMemory id).memoryContexts ↔
      row ∈ db.memoryContexts ∧ row.memoryId ≠ id := by
    intro row
    simp only [Db.dropMemory, Table.mem_deleteWhere_iff, decide_eq_false_iff_not, ne_eq]
  have stored : ∀ other, other ≠ id → db.memories.contains other = true →
      (db.dropMemory id).memories.contains other = true := by
    intro other different present
    rw [Table.contains, Db.find?_dropMemory, if_neg different, Option.isSome_map]
    exact present
  refine ⟨fun anchored => ⟨⟨?_, ?_⟩, fun other different => ?_⟩, fun _ => ?_⟩
  · intro row rowMem
    obtain ⟨rowMem, different⟩ := (memberships row).mp rowMem
    rw [contexts]
    exact ⟨stored _ different (anchored.memberships row rowMem).1,
      (anchored.memberships row rowMem).2⟩
  · intro other present
    rw [Table.contains, metadata] at present
    split at present
    · cases present
    · rename_i different
      exact stored other different (anchored.metadata other present)
  · have rows : (db.dropMemory id).membershipsOf other = db.membershipsOf other :=
      congrArg Attachments.memberships (Db.attachments_dropMemory different)
    have conversation : ((db.dropMemory id).memories.find? other).map
        (·.provenance.sourceConversation) =
        (db.memories.find? other).map (·.provenance.sourceConversation) := by
      rw [Db.find?_dropMemory, if_neg different, Option.map_map]
      congr 1
      funext row
      simp only [Function.comp_apply]
      split <;> rfl
    rw [Db.scopeView, Db.scopeView, conversation, metadata, if_neg different, rows,
      Db.compatibilityScopeKey_congr rows contexts]
  · have unattached : (db.dropMemory id).membershipsOf id = [] := by
      rw [Db.membershipsOf, List.eq_nil_iff_forall_not_mem]
      intro row rowMem
      obtain ⟨stored, own⟩ := Table.mem_select_iff.mp rowMem
      exact ((memberships row).mp stored).2 (decide_eq_true_eq.mp own)
    refine ⟨?_, ?_, ?_⟩
    · intro storedScope present
      rw [Db.scopeView, Db.find?_dropMemory, if_pos rfl] at present
      cases present
    · intro storedScope present
      rw [Db.scopeView, metadata, if_pos rfl] at present
      cases present
    · rw [Db.scopeView, unattached]
      rfl

theorem safe_entombMemory (memory : Memory) (deletedAt : Instant) (deletedBy : Option String) :
    Within ScopeSafe (entombMemory memory deletedAt deletedBy) := by
  refine Within.bind (KeepsScopes.safe (keepsScopes_of_tables (Within.writes fun _ => rfl)))
    fun _ => ?_
  refine Within.bind (readsOnly_memoryExists memory.id).within fun present => ?_
  cases present with
  | false => exact Within.pure
  | true =>
      refine Within.bind (Within.writes fun db => ?_) fun _ => Within.pure
      exact (restores_dropMemory memory.id db).safe

theorem safe_insertAuditDraft (id : MemoryId) (audit : AuditDraft) :
    Within ScopeSafe (insertAuditDraft id audit) :=
  (keepsScopes_insertAuditDraft id audit).safe

theorem safe_auditAfter {audit : Option AuditDraft} {id : MemoryId} :
    Within ScopeSafe (onSome audit (insertAuditDraft id)) :=
  KeepsScopes.safe (Within.onSome fun _ _ => keepsScopes_insertAuditDraft _ _)

variable [Host]

/-! ## Updates -/

omit [Host] in
theorem safe_applyUpdate (id : MemoryId) (update : MemoryUpdate) (now : Instant) :
    Within ScopeSafe (applyUpdate id update now) := by
  unfold applyUpdate
  split
  · exact Within.bind (readsOnly_memoryExists id).within fun _ => Within.pure
  · refine Within.bind Within.reads fun found => ?_
    cases found with
    | none => exact Within.pure
    | some existing =>
        intro db value next ran cached
        obtain ⟨_, checked, ran⟩ := (readsOnly_validateCompatibilityCacheUpdate _ _ _).of_bind ran
        exact cached_applyUpdateInner cached (validateCompatibilityCacheUpdate_ok checked).1 ran

omit [Host] in
theorem safe_updateAuthorized (id : MemoryId) (update : MemoryUpdate) (principal : String)
    (audit : Option AuditDraft) (now : Instant) :
    Within ScopeSafe (updateAuthorized id update principal audit now) := by
  refine Within.bind Within.reads fun found => ?_
  cases found with
  | none => exact Within.pure
  | some existing =>
      dsimp only
      split
      · refine safe_validatedUpdate fun _ => ?_
        refine Within.bind (KeepsScopes.safe (Within.onSome fun _ _ => ?_)) fun _ => Within.pure
        exact keepsScopes_insertAuditDraft _ _
      · exact Within.pure

omit [Host] in
theorem safe_bulkUpdateIds (ids : List MemoryId) (update : MemoryUpdate)
    (principal : String) (audit : Option AuditDraft) (now : Instant) :
    Within ScopeSafe (bulkUpdateIds ids update principal audit now) := by
  refine Within.foldlM fun outcome id _ => ?_
  refine Within.bind Within.reads fun found => ?_
  cases found with
  | none => exact Within.pure
  | some memory =>
      dsimp only
      split
      · refine safe_validatedUpdate fun _ => ?_
        exact Within.bind safe_auditAfter fun _ => Within.pure
      · exact Within.pure

theorem safe_updateAuthorizedWithMetadata (id : MemoryId) (update : MemoryUpdate)
    (patch : Option MetadataPatch) (principal : String) (audit : Option AuditDraft)
    (now : Instant) :
    Within ScopeSafe (updateAuthorizedWithMetadata id update patch principal audit now) := by
  intro db value next ran cached
  have ran := of_reads_bind ran
  cases found : db.memories.find? id with
  | none =>
      rw [found] at ran
      cases pure_eq_ok.mp ran
      exact cached
  | some row =>
      rw [found] at ran
      dsimp only [Option.map_some] at ran
      split at ran
      · obtain ⟨_, checked, ran⟩ := (readsOnly_validateCompatibilityCacheUpdate _ _ _).of_bind ran
        obtain ⟨outcome, updated, updateRan, ran⟩ := bind_eq_ok.mp ran
        split at ran
        · obtain ⟨_, patched, patchRan, ran⟩ := bind_eq_ok.mp ran
          have later : Within ScopeSafe (do
              onSome audit fun draft => insertAuditDraft row.toMemory.id
                (updateAuditDraftForLockedMemory draft update row.toMemory)
              return outcome) :=
            Within.bind (KeepsScopes.safe (Within.onSome fun _ _ =>
              keepsScopes_insertAuditDraft _ _)) fun _ => Within.pure
          exact later ran (cached_validatedPatch cached found checked updateRan patchRan)
        · cases pure_eq_ok.mp ran
          exact cached_applyUpdateInner cached (validateCompatibilityCacheUpdate_ok checked).1
            updateRan
      · cases pure_eq_ok.mp ran
        exact cached

theorem restores_replaceContextsForUpdate (id : MemoryId) (update : MemoryUpdate)
    (patch : Option MetadataPatch) (contextIds : List ContextId) (principal : String)
    (contextAudit : Option ContextAuditDraft) (revisionAt : Instant) :
    Within (ScopeRestored id)
      (replaceContextsForUpdate id update patch contextIds principal contextAudit revisionAt) := by
  refine restored_bind Within.expect fun _ => ?_
  refine restored_bind Within.expect fun _ => ?_
  exact restored_bind Within.require fun _ => restores_replaceMemoryContextsTx _ _ _ _ _ _

theorem safe_updateAuthorizedWithMetadataContexts (id : MemoryId) (update : MemoryUpdate)
    (patch : Option MetadataPatch) (contextIds : Option (List ContextId)) (principal : String)
    (audit : AuditDraft) (contextAudit : Option ContextAuditDraft) (now : Instant) :
    Within ScopeSafe (updateAuthorizedWithMetadataContexts id update patch contextIds principal
      audit contextAudit now) := by
  refine Within.bind Within.require fun _ => ?_
  intro db value next ran cached
  have ran := of_reads_bind ran
  cases found : db.memories.find? id with
  | none =>
      rw [found] at ran
      cases pure_eq_ok.mp ran
      exact cached
  | some row =>
      rw [found] at ran
      dsimp only [Option.map_some] at ran
      split at ran
      · cases contextIds with
        | none =>
            obtain ⟨_, checked, ran⟩ :=
              (readsOnly_validateCompatibilityCacheUpdate _ _ _).of_bind ran
            obtain ⟨outcome, updated, updateRan, ran⟩ := bind_eq_ok.mp ran
            split at ran
            · obtain ⟨_, patched, patchRan, ran⟩ := bind_eq_ok.mp ran
              have later : Within ScopeSafe (do
                  insertAuditDraft row.toMemory.id
                    (updateAuditDraftForLockedMemory audit update row.toMemory)
                  return outcome) :=
                Within.bind (keepsScopes_insertAuditDraft _ _).safe fun _ => Within.pure
              exact later ran (cached_validatedPatch cached found checked updateRan patchRan)
            · cases pure_eq_ok.mp ran
              exact cached_applyUpdateInner cached
                (validateCompatibilityCacheUpdate_ok checked).1 updateRan
        | some ids =>
            obtain ⟨_, _, passed, ran⟩ := bind_eq_ok.mp ran
            cases pure_eq_ok.mp passed
            obtain ⟨outcome, updated, updateRan, ran⟩ := bind_eq_ok.mp ran
            rw [if_pos (applied_of_applyUpdateInner found updateRan)] at ran
            obtain ⟨_, patched, patchRan, ran⟩ := bind_eq_ok.mp ran
            obtain ⟨_, replaced, replaceRan, ran⟩ := bind_eq_ok.mp ran
            obtain ⟨_, _, audited, done⟩ := bind_eq_ok.mp ran
            cases pure_eq_ok.mp done
            have restored : ScopeRestored id patched replaced :=
              restores_replaceContextsForUpdate _ _ _ _ _ _ _ replaceRan
            have revised : ScopeRestored id db replaced :=
              (restored.after (touchesScope_applyPatchAfterUpdate _ _ _ _ _ _ patchRan)).after
                (touchesScope_applyUpdateInner _ _ _ updateRan)
            exact (revised.followed (keepsScopes_insertAuditDraft _ _ audited)).safe cached
      · cases pure_eq_ok.mp ran
        exact cached

omit [Host] in
theorem keepsScopes_storeReplacementEmbedding (dimensions : Nat)
    (activeProfile : Option EmbeddingProfile) (id : MemoryId) (embedding : Embedding) :
    KeepsScopes (storeReplacementEmbedding dimensions activeProfile id embedding) := by
  refine Within.bind (Within.onSome fun _ _ =>
    (readsOnly_ensureEmbeddingProfileMatches _).within) fun _ => ?_
  refine Within.bind (keepsScopes_vectorUpsert _ _ _) fun _ => ?_
  exact Within.bind (keepsScopes_updateMemory fun _ => rfl) fun _ => Within.require

theorem restores_replaceContextsOptimistically (id : MemoryId) (contextIds : List ContextId)
    (principal : String) (contextAudit : Option ContextAuditDraft) (revisionAt : Instant) :
    Within (ScopeRestored id)
      (replaceContextsOptimistically id contextIds principal contextAudit revisionAt) := by
  intro db value next ran
  obtain ⟨draft, _, ran⟩ := of_expect_bind ran
  obtain ⟨scope, _, ran⟩ := (readsOnly_optimisticCompatibilityScope contextIds).of_bind ran
  have ran := of_reads_bind ran
  obtain ⟨_, stated, upsertRan, replaceRan⟩ := bind_eq_ok.mp ran
  have sameId : ((((db.metadata.find? id).map (·.metadata)).getD
      (blankMetadata id principal)).memoryId) = id := by
    cases found : db.metadata.find? id with
    | none => rfl
    | some row =>
        have named := Table.find?_key found
        exact named
  have touches := touchesScope_upsertMetadata _ _ upsertRan
  refine (restores_replaceMemoryContextsTx _ _ _ _ _ _ replaceRan).after ?_
  intro anchored
  obtain ⟨nextAnchored, views⟩ := touches anchored
  refine ⟨nextAnchored, fun other different => views other ?_⟩
  intro same
  exact different (same.trans sameId)

/-- An optimistic update without memberships restates the key; one with
memberships restores the copies. -/
theorem cached_reviseUnmodified {dimensions : Nat} {activeProfile : Option EmbeddingProfile}
    {id : MemoryId} {update : MemoryUpdate} {patch : Option MetadataPatch}
    {contextIds : Option (List ContextId)} {embedding : Option Embedding} {row : MemoryRow}
    {principal : String} {audit : AuditDraft} {contextAudit : Option ContextAuditDraft}
    {revisionAt : Instant} {db next : Db} {outcome : AuthorizedUpdateOutcome}
    (cached : db.ScopesCached) (found : db.memories.find? id = some row)
    (checked : contextIds = none →
      ∃ result, validateCompatibilityCacheUpdate id update patch db = .ok result)
    (ran : reviseUnmodified dimensions activeProfile id update patch contextIds embedding
      row.toMemory principal audit contextAudit revisionAt db = .ok (outcome, next)) :
    next.ScopesCached := by
  obtain ⟨_, updated, updateRan, ran⟩ := bind_eq_ok.mp ran
  obtain ⟨_, embedded, embedRan, ran⟩ := bind_eq_ok.mp ran
  obtain ⟨_, patched, patchRan, ran⟩ := bind_eq_ok.mp ran
  obtain ⟨_, advanced, advanceRan, ran⟩ := bind_eq_ok.mp ran
  obtain ⟨_, replaced, replaceRan, ran⟩ := bind_eq_ok.mp ran
  obtain ⟨_, _, audited, done⟩ := bind_eq_ok.mp ran
  cases pure_eq_ok.mp done
  have embeds : ScopeTouches (fun _ => False) updated embedded :=
    Within.onSome (fun _ _ => keepsScopes_storeReplacementEmbedding _ _ _ _) embedRan
  have advances : ScopeTouches (fun _ => False) patched advanced :=
    Within.onSome (fun _ _ => keepsScopes_incrementRecordRevision _ _) advanceRan
  have audits := keepsScopes_insertAuditDraft _ _ audited
  cases contextIds with
  | none =>
      cases pure_eq_ok.mp replaceRan
      obtain ⟨_, checked⟩ := checked rfl
      obtain ⟨conversation, metadataScope⟩ := validateCompatibilityCacheUpdate_ok checked
      obtain ⟨updates, view⟩ := scopeView_applyUpdateInner cached.anchored updateRan
      have updatedCached := cached_applyUpdateInner cached conversation updateRan
      have embeddedCached := embeds.safe_of_kept updatedCached
      have sameKey : embedded.compatibilityScopeKey id = db.compatibilityScopeKey id :=
        congrArg ScopeView.key (((embeds updatedCached.anchored).2 id not_false).trans view)
      have patchedCached : patched.ScopesCached := by
        cases patch with
        | none =>
            cases pure_eq_ok.mp patchRan
            exact embeddedCached
        | some changes =>
            refine cached_applyMetadataPatch embeddedCached ?_ ?_ patchRan
            · rw [sameKey]
              exact metadataScope
            · rw [sameKey]
              exact cached.fetched found
      exact audits.safe_of_kept (advances.safe_of_kept patchedCached)
  | some ids =>
      have patches : ScopeTouches (fun other => other = id) embedded patched :=
        Within.onSome (fun _ _ => touchesScope_applyMetadataPatch _ _ _ _ _) patchRan
      have restored : ScopeRestored id advanced replaced :=
        restores_replaceContextsOptimistically _ _ _ _ _ replaceRan
      have revised : ScopeRestored id db replaced :=
        (((restored.after advances.weaken).after patches).after embeds.weaken).after
          (touchesScope_applyUpdateInner _ _ _ updateRan)
      exact (revised.followed audits).safe cached

theorem safe_updateAuthorizedIfUnmodified (dimensions : Nat)
    (activeProfile : Option EmbeddingProfile) (id : MemoryId) (expectedRevision : Int)
    (update : MemoryUpdate) (patch : Option MetadataPatch)
    (contextIds : Option (List ContextId)) (embedding : Option Embedding) (principal : String)
    (audit : AuditDraft) (contextAudit : Option ContextAuditDraft) (now : Instant) :
    Within ScopeSafe (updateAuthorizedIfUnmodified dimensions activeProfile id expectedRevision
      update patch contextIds embedding principal audit contextAudit now) := by
  refine Within.bind Within.require fun _ => ?_
  refine Within.bind (Within.onSome fun _ _ => (readsOnly_validateEmbeddingVector _ _).within)
    fun _ => ?_
  refine Within.bind Within.require fun _ => ?_
  intro db value next ran cached
  have ran := of_reads_bind ran
  cases found : db.memories.find? id with
  | none =>
      rw [found] at ran
      cases pure_eq_ok.mp ran
      exact cached
  | some row =>
      rw [found] at ran
      dsimp only [Option.map_some] at ran
      split at ran
      · obtain ⟨_, ran⟩ := of_require_bind ran
        have checks : ReadsOnly (onSome (if contextIds.isNone then some () else none) fun _ =>
            validateCompatibilityCacheUpdate id update patch) :=
          Within.onSome fun _ _ => readsOnly_validateCompatibilityCacheUpdate _ _ _
        obtain ⟨_, checked, ran⟩ := checks.of_bind ran
        refine cached_reviseUnmodified cached found (fun none => ?_) ran
        subst none
        exact ⟨_, checked⟩
      · cases pure_eq_ok.mp ran
        exact cached

end LocalHold
