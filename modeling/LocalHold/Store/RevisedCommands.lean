import LocalHold.Store.RevisedStatements

/-!
# Record revisions of the store's commands

Every command is sound: a memory whose fields it changes ends with a higher
record revision.  A store is sound because the memory it writes did not exist;
the other writers advance the revision in the transaction that changes fields.
-/

namespace LocalHold

open Relational Transition Transition.Txn

/-! ## Storing -/

/-- A memory appears; it may be written further, the others fare soundly. -/
def Inserts (id : MemoryId) (before after : Db) : Prop :=
  before.view id = none ∧
    (before.tombstones.contains id = false → Touches Ordered id before after)

/-- Storing under new identifiers is sound. -/
def StoredAs (ids : List MemoryId) (before after : Db) : Prop :=
  after.tombstones = before.tombstones ∧
    ((∀ id ∈ ids, before.tombstones.contains id = false) → Sound before after)

instance (ids : List MemoryId) : Std.Refl (StoredAs ids) :=
  ⟨fun state => ⟨rfl, fun _ => Std.Refl.refl state⟩⟩

instance (ids : List MemoryId) : IsTrans Db (StoredAs ids) :=
  ⟨fun first second third early late => by
    refine ⟨late.1.trans early.1, fun unused => ?_⟩
    apply IsTrans.trans first second third (early.2 unused)
    apply late.2
    rw [early.1]
    exact unused⟩

section Stores

variable {α β : Type} {id : MemoryId}

theorem withinInserts_bind {first : StoreM α} {rest : α → StoreM β}
    (firstWithin : Within (Inserts id) first)
    (restWithin : ∀ value, Within (Touches Ordered id) (rest value)) :
    Within (Inserts id) (first >>= rest) :=
  firstWithin.comp restWithin fun _ _ _ early late =>
    ⟨early.1, fun unused => IsTrans.trans _ _ _ (early.2 unused) late⟩

/-- A memory that did not exist cannot lose an update. -/
theorem withinStoredAs_of_inserts {ids : List MemoryId} {body : StoreM α} (idMem : id ∈ ids)
    (inserts : Within (Inserts id) body) (keeps : KeepsTombstones body) :
    Within (StoredAs ids) body := by
  intro state value next ran
  refine ⟨keeps ran, fun unused => ?_⟩
  obtain ⟨absent, touches⟩ := inserts ran
  have touched := touches (unused id idMem)
  intro other
  by_cases equal : other = id
  · subst equal
    exact
      { kept := by intro old new oldView _; rw [absent] at oldView; cases oldView
        gone := touched.1.gone
        fresh := touched.1.fresh
        tombstone := touched.1.tombstone }
  · exact touched.2 other equal

theorem withinInserts_insertMemoryRow (row : MemoryRow) :
    Within (Inserts row.id) (insertMemoryRow row) := by
  refine Within.reads_expect_writes fun db memories inserted => ?_
  have absent : db.view row.id = none := by
    rw [Db.view_eq_none_iff, Table.find?_eq_none_iff]
    exact Table.contains_eq_false_iff.mp (Table.insert?_eq_some_iff.mp inserted).1
  refine ⟨absent, fun unused => ⟨?_, fun other different => ?_⟩⟩
  · exact
      { kept := by intro old new oldView _; rw [absent] at oldView; cases oldView
        gone := by intro present _; exact absurd absent present
        fresh := fun _ _ => unused
        tombstone := fun tombstoned => tombstoned }
  · apply Related.of_view_eq Tracked.refl
    · simp only [Db.view, Table.find?_insert? inserted, if_neg different]
      rfl
    · rfl

theorem withinStoredAs_of_leavesMemories {ids : List MemoryId} {body : StoreM α}
    (inner : LeavesMemories body) : Within (StoredAs ids) body := by
  intro state value next ran
  exact ⟨keepsTombstones_of_leavesMemories inner ran,
    fun _ => withinSound_of_leavesMemories inner ran⟩

theorem withinSound_insertAuditDraft (id : MemoryId) (audit : AuditDraft) :
    Within Sound (insertAuditDraft id audit) :=
  withinSound_of_leavesMemories (leavesMemories_insertAuditDraft id audit)

theorem withinSound_insertContextAudit (audit : ContextAuditDraft) (contextId : Option ContextId)
    (memoryId : Option MemoryId) (now : Instant) :
    Within Sound (insertContextAudit audit contextId memoryId now) :=
  withinSound_of_leavesMemories (leavesMemories_insertContextAudit audit contextId memoryId now)

theorem withinInserts_insertPrepared (dimensions : Nat) (item : MemoryWithEmbedding) :
    Within (Inserts item.memory.id) (insertPrepared dimensions item) := by
  refine withinInserts_bind (withinInserts_insertMemoryRow (preparedMemoryRow item)) fun _ => ?_
  refine Within.bind (Within.onSome fun _ _ => ?_) fun _ => withinTouches_insertEntities _ _
  exact withinTouches_of_sound (withinSound_vectorUpsert _ _ _)

theorem withinSound_markSuperseded (oldId newId : MemoryId) :
    Within Sound (markSuperseded oldId newId) := by
  refine Within.bind Within.reads fun existing => ?_
  cases existing with
  | none => exact Within.pure
  | some memory =>
      refine Within.bind Within.require fun _ => ?_
      refine Within.bind ?_ fun _ => Within.bind Within.require fun _ => Within.pure
      exact withinSound_updateMemoryWhere_advancing fun row => Int.lt_succ row.recordRevision

theorem withinInserts_insertPreparedWithSupersession (dimensions : Nat)
    (item : MemoryWithEmbedding) (supersedes : Option MemoryId) (audit : Option AuditDraft) :
    Within (Inserts item.memory.id)
      (insertPreparedWithSupersession dimensions item supersedes audit) := by
  have checks : ReadsOnly (onSome supersedes validateSupersededExists) :=
    Within.onSome fun _ _ => readsOnly_validateSupersededExists _
  refine checks.bind_within fun _ _ _ _ => ?_
  refine withinInserts_bind (withinInserts_insertPrepared dimensions item) fun _ => ?_
  refine Within.bind (Within.onSome fun _ _ => ?_) fun _ => Within.onSome fun _ _ => ?_
  · exact Within.bind (withinTouches_of_sound (withinSound_markSuperseded _ _)) fun _ => Within.pure
  · exact withinTouches_of_sound (withinSound_insertAuditDraft _ _)

theorem withinInserts_storeItemWithMetadata {dimensions : Nat} {item : MemoryWithEmbedding}
    {supersedes : Option MemoryId} {metadata : MemoryMetadata} {audit : Option AuditDraft}
    {now : Instant} (sameId : metadata.memoryId = item.memory.id) :
    Within (Inserts item.memory.id)
      (storeItemWithMetadata dimensions item supersedes metadata audit now) := by
  refine withinInserts_bind (withinInserts_insertPreparedWithSupersession _ _ _ _) fun _ => ?_
  rw [← sameId]
  exact withinTouches_upsertMetadata metadata now

theorem keepsTombstones_storeItemWithMetadata (dimensions : Nat) (item : MemoryWithEmbedding)
    (supersedes : Option MemoryId) (metadata : MemoryMetadata) (audit : Option AuditDraft)
    (now : Instant) :
    KeepsTombstones (storeItemWithMetadata dimensions item supersedes metadata audit now) := by
  refine Within.bind (keepsTombstones_insertPreparedWithSupersession _ _ _ _) fun _ => ?_
  exact keepsTombstones_upsertMetadata _ _

theorem validateMetadataMemoryId_ok {id : MemoryId} {metadata : MemoryMetadata} {state : Db}
    {result : Unit × Db} (ran : validateMetadataMemoryId id metadata state = .ok result) :
    metadata.memoryId = id := by
  simpa using (require_eq_ok.mp ran).1

theorem withinStoredAs_store (dimensions : Nat) (item : MemoryWithEmbedding)
    (audit : Option AuditDraft) :
    Within (StoredAs [item.memory.id]) (store dimensions item audit) := by
  have storedItem : Within (StoredAs [item.memory.id]) (insertPrepared dimensions item) :=
    withinStoredAs_of_inserts (by simp) (withinInserts_insertPrepared dimensions item)
      (keepsTombstones_insertPrepared dimensions item)
  refine Within.bind storedItem fun _ => ?_
  refine Within.bind (Within.onSome fun _ _ => ?_) fun _ => Within.pure
  exact withinStoredAs_of_leavesMemories (leavesMemories_insertAuditDraft _ _)

theorem withinStoredAs_storeWithMetadata (dimensions : Nat) (item : MemoryWithEmbedding)
    (supersedes : Option MemoryId) (metadata : MemoryMetadata) (audit : Option AuditDraft)
    (now : Instant) :
    Within (StoredAs [item.memory.id])
      (storeWithMetadata dimensions item supersedes metadata audit now) := by
  have checks : ReadsOnly (validateMetadataMemoryId item.memory.id metadata) := Within.require
  refine checks.bind_within fun _ _ _ checked => ?_
  refine Within.bind ?_ fun _ => Within.pure
  exact withinStoredAs_of_inserts (by simp)
    (withinInserts_storeItemWithMetadata (validateMetadataMemoryId_ok checked))
    (keepsTombstones_storeItemWithMetadata _ _ _ _ _ _)

theorem withinStoredAs_storeWithSupersession (dimensions : Nat) (item : MemoryWithEmbedding)
    (supersedes : MemoryId) (audit : Option AuditDraft) :
    Within (StoredAs [item.memory.id])
      (storeWithSupersession dimensions item supersedes audit) := by
  refine Within.bind ?_ fun _ => Within.pure
  exact withinStoredAs_of_inserts (by simp) (withinInserts_insertPreparedWithSupersession _ _ _ _)
    (keepsTombstones_insertPreparedWithSupersession _ _ _ _)

theorem withinStoredAs_storeBatch (dimensions : Nat) (items : List MemoryWithEmbedding)
    (audits : Option (List AuditDraft)) :
    Within (StoredAs (items.map (·.memory.id))) (storeBatch dimensions items audits) := by
  refine Within.bind (Within.onSome fun _ _ => Within.require) fun _ => ?_
  refine Within.bind (Within.forM fun entry entryMem => ?_) fun _ => Within.pure
  have idMem : entry.1.memory.id ∈ items.map (·.memory.id) :=
    List.mem_map_of_mem (List.fst_mem_of_mem_zipIdx entryMem)
  refine Within.bind ?_ fun _ => Within.onSome fun _ _ => ?_
  · exact withinStoredAs_of_inserts idMem (withinInserts_insertPrepared dimensions entry.1)
      (keepsTombstones_insertPrepared dimensions entry.1)
  · exact withinStoredAs_of_leavesMemories (leavesMemories_insertAuditDraft _ _)

theorem withinStoredAs_storeBatchWithSupersession (dimensions : Nat)
    (items : List MemoryWithEmbedding) (supersedes : List (Option MemoryId))
    (audits : Option (List AuditDraft)) :
    Within (StoredAs (items.map (·.memory.id)))
      (storeBatchWithSupersession dimensions items supersedes audits) := by
  refine Within.bind Within.require fun _ => ?_
  refine Within.bind (Within.onSome fun _ _ => Within.require) fun _ => ?_
  refine Within.bind (Within.forM fun entry entryMem => ?_) fun _ => Within.pure
  have idMem : entry.1.memory.id ∈ items.map (·.memory.id) :=
    List.mem_map_of_mem (List.fst_mem_of_mem_zipIdx entryMem)
  exact withinStoredAs_of_inserts idMem (withinInserts_insertPreparedWithSupersession _ _ _ _)
    (keepsTombstones_insertPreparedWithSupersession _ _ _ _)

theorem withinStoredAs_storeBatchWithMetadata (dimensions : Nat)
    (items : List MemoryWithEmbedding) (supersedes : List (Option MemoryId))
    (metadata : List MemoryMetadata) (audits : Option (List AuditDraft)) (now : Instant) :
    Within (StoredAs (items.map (·.memory.id)))
      (storeBatchWithMetadata dimensions items supersedes metadata audits now) := by
  refine Within.bind Within.require fun _ => ?_
  refine Within.bind Within.require fun _ => ?_
  refine Within.bind (Within.onSome fun _ _ => Within.require) fun _ => ?_
  have checks : ReadsOnly ((items.zip metadata).forM fun entry =>
      validateMetadataMemoryId entry.1.memory.id entry.2) :=
    Within.forM fun _ _ => Within.require
  refine checks.bind_within fun _ _ _ checked => ?_
  have sameIds := forM_ok_forall (fun _ _ _ _ ran => validateMetadataMemoryId_ok ran) checked
  refine Within.bind (Within.forM fun entry entryMem => ?_) fun _ => Within.pure
  have pairMem := List.fst_mem_of_mem_zipIdx entryMem
  have idMem : entry.1.1.memory.id ∈ items.map (·.memory.id) :=
    List.mem_map_of_mem (List.of_mem_zip pairMem).1
  exact withinStoredAs_of_inserts idMem
    (withinInserts_storeItemWithMetadata (sameIds entry.1 pairMem))
    (keepsTombstones_storeItemWithMetadata _ _ _ _ _ _)

variable [Host]

theorem withinInserts_storeGovernedItem {dimensions : Nat} {request : GovernedItem}
    {principal : String} {now : Instant}
    (sameId : request.metadata.memoryId = request.item.memory.id) :
    Within (Inserts request.item.memory.id)
      (storeGovernedItem dimensions request principal now) :=
  withinInserts_bind (withinInserts_storeItemWithMetadata sameId) fun _ =>
    withinTouches_insertMemoryContexts _ _ _ _ _ _ _

omit [Host] in
theorem validateGovernedItem_ok {request : GovernedItem} {state : Db} {result : String × Db}
    (ran : validateGovernedItem request state = .ok result) :
    request.metadata.memoryId = request.item.memory.id := by
  obtain ⟨_, _, checked, _⟩ := bind_eq_ok.mp ran
  exact validateMetadataMemoryId_ok checked

theorem withinStoredAs_storeWithMetadataContexts (dimensions : Nat) (request : GovernedItem)
    (now : Instant) :
    Within (StoredAs [request.item.memory.id])
      (storeWithMetadataContexts dimensions request now) := by
  refine (readsOnly_validateGovernedItem request).bind_within fun _ _ _ checked => ?_
  refine Within.bind ?_ fun _ => Within.pure
  exact withinStoredAs_of_inserts (by simp)
    (withinInserts_storeGovernedItem (validateGovernedItem_ok checked))
    (keepsTombstones_storeGovernedItem _ _ _ _)

theorem withinStoredAs_storeBatchWithMetadataContexts (dimensions : Nat)
    (items : List MemoryWithEmbedding) (supersedes : List (Option MemoryId))
    (metadata : List MemoryMetadata) (contextIds : List (List ContextId))
    (audits : List AuditDraft) (contextAudits : List ContextAuditDraft) (now : Instant) :
    Within (StoredAs (items.map (·.memory.id)))
      (storeBatchWithMetadataContexts dimensions items supersedes metadata contextIds audits
        contextAudits now) := by
  refine Within.bind Within.require fun _ => ?_
  refine ReadsOnly.bind_within (Within.mapM fun _ _ => readsOnly_validateGovernedItem _)
    fun _ _ _ checked => ?_
  have sameIds := mapM_ok_forall (fun _ _ _ _ ran => validateGovernedItem_ok ran) checked
  refine Within.bind (Within.forM fun entry entryMem => ?_) fun _ => Within.pure
  have requestMem := (List.of_mem_zip entryMem).1
  have idMem : entry.1.item.memory.id ∈ items.map (·.memory.id) :=
    List.mem_map_of_mem (item_mem_of_mem_governedItems requestMem)
  exact withinStoredAs_of_inserts idMem
    (withinInserts_storeGovernedItem (sameIds entry.1 requestMem))
    (keepsTombstones_storeGovernedItem _ _ _ _)

end Stores

/-! ## Updating -/

theorem withinAdvanced_applyUpdateColumns {id : MemoryId} {update : MemoryUpdate}
    {now : Instant} (writesFields : update.metadataOnly = false) :
    Within (Touches Advanced id) (applyUpdateColumns id update now) := by
  unfold applyUpdateColumns
  split
  · rename_i columns
    apply withinAdvanced_updateMemory
    intro row
    simp only [MemoryUpdate.setClause, columns, if_true]
    exact Int.lt_succ row.recordRevision
  · rename_i noColumns
    split
    · exact withinAdvanced_updateMemory fun row => Int.lt_succ row.recordRevision
    · rename_i noEntities
      simp [MemoryUpdate.metadataOnly, noColumns, noEntities] at writesFields

theorem withinSound_dropStaleEmbedding (id : MemoryId) (update : MemoryUpdate) :
    Within Sound (dropStaleEmbedding id update) := by
  unfold dropStaleEmbedding
  split
  · refine Within.bind (withinSound_deleteEmbeddingMapRow id) fun _ => ?_
    exact Within.bind (readsOnly_embeddingRevision id).within fun _ => Within.pure
  · exact Within.pure

/-- An update with fields advances the revision of its memory. -/
theorem withinAdvanced_applyUpdateInner {id : MemoryId} {update : MemoryUpdate} {now : Instant}
    (writesFields : update.metadataOnly = false) :
    Within (Touches Advanced id) (applyUpdateInner id update now) := by
  refine withinAdvanced_bind_left (withinAdvanced_applyUpdateColumns writesFields) fun affected => ?_
  split
  · refine Within.bind (withinTouches_of_sound (withinSound_dropStaleEmbedding id update))
      fun _ => ?_
    refine Within.bind (Within.onSome fun _ _ => ?_) fun _ => Within.pure
    exact withinTouches_replaceEntities _ _
  · exact Within.pure

/-- An update without fields changes nothing. -/
theorem readsOnly_applyUpdateInner {id : MemoryId} {update : MemoryUpdate} {now : Instant}
    (metadataOnly : update.metadataOnly = true) : ReadsOnly (applyUpdateInner id update now) := by
  simp only [MemoryUpdate.metadataOnly, Bool.and_eq_true, Bool.not_eq_true',
    Option.isNone_iff_eq_none] at metadataOnly
  obtain ⟨noColumns, noEntities⟩ := metadataOnly
  have noContent : update.content.isSome = false := by
    simp only [MemoryUpdate.hasColumnUpdates, Bool.or_eq_false_iff] at noColumns
    exact noColumns.1.1.1.1.1.1
  simp only [applyUpdateInner, applyUpdateColumns, dropStaleEmbedding, noColumns, noEntities,
    noContent]
  refine Within.bind (readsOnly_memoryExists id) fun affected => ?_
  split
  · exact Within.bind Within.pure fun _ => Within.bind Within.pure fun _ => Within.pure
  · exact Within.pure

theorem withinSound_applyUpdateInner (id : MemoryId) (update : MemoryUpdate) (now : Instant) :
    Within Sound (applyUpdateInner id update now) := by
  cases metadataOnly : update.metadataOnly with
  | false => exact withinSound_of_advanced (withinAdvanced_applyUpdateInner metadataOnly)
  | true => exact (readsOnly_applyUpdateInner metadataOnly).within

theorem withinSound_applyUpdate (id : MemoryId) (update : MemoryUpdate) (now : Instant) :
    Within Sound (applyUpdate id update now) := by
  unfold applyUpdate
  split
  · exact Within.bind Within.reads fun _ => Within.pure
  · refine Within.bind Within.reads fun existing => ?_
    cases existing with
    | none => exact Within.pure
    | some memory =>
        refine Within.bind (readsOnly_validateCompatibilityCacheUpdate _ _ _).within fun _ => ?_
        exact withinSound_applyUpdateInner _ _ _

theorem withinSound_updateAuthorized (id : MemoryId) (update : MemoryUpdate) (principal : String)
    (audit : Option AuditDraft) (now : Instant) :
    Within Sound (updateAuthorized id update principal audit now) := by
  refine Within.bind Within.reads fun existing => ?_
  split
  · exact Within.pure
  · split
    · refine Within.bind (readsOnly_validateCompatibilityCacheUpdate _ _ _).within fun _ => ?_
      refine Within.bind (withinSound_applyUpdateInner _ _ _) fun _ => ?_
      refine Within.bind (Within.onSome fun _ _ => ?_) fun _ => Within.pure
      exact withinSound_insertAuditDraft _ _
    · exact Within.pure

theorem withinAdvanced_incrementRecordRevision (id : MemoryId) (action : String) :
    Within (Touches Advanced id) (incrementRecordRevision id action) := by
  refine withinAdvanced_bind_left ?_ fun _ => Within.require
  exact withinAdvanced_updateMemory fun row => Int.lt_succ row.recordRevision

section Governed

variable [Host]

theorem withinTouches_applyMetadataPatch (id : MemoryId) (patch : MetadataPatch)
    (fallbackScope : Option String) (principal : String) (now : Instant) :
    Within (Touches Ordered id) (applyMetadataPatch id patch fallbackScope principal now) :=
  Within.bind (readsOnly_getMetadata id).within fun _ => withinTouches_upsertMetadata _ now

/-- After an update with fields, the metadata part only touches the memory. -/
theorem withinTouches_applyPatchAfterUpdate {id : MemoryId} {update : MemoryUpdate}
    {patch : Option MetadataPatch} {existing : Memory} {principal : String}
    {revisionAt : Instant} :
    Within (Touches Ordered id)
      (applyPatchAfterUpdate id update patch existing principal revisionAt) := by
  refine Within.bind (Within.onSome fun _ _ => withinTouches_applyMetadataPatch _ _ _ _ _)
    fun _ => Within.onSome fun _ _ => ?_
  exact withinTouches_of_sound
    (withinSound_of_advanced (withinAdvanced_incrementRecordRevision id "saving"))

/-- After an update without fields, the metadata part advances on its own. -/
theorem withinSound_applyPatchAfterUpdate {id : MemoryId} {update : MemoryUpdate}
    {patch : Option MetadataPatch} {existing : Memory} {principal : String}
    {revisionAt : Instant} (metadataOnly : update.metadataOnly = true) :
    Within Sound (applyPatchAfterUpdate id update patch existing principal revisionAt) := by
  simp only [applyPatchAfterUpdate, metadataOnly, if_true]
  cases patch with
  | none => exact Within.bind Within.pure fun _ => Within.pure
  | some changes =>
      apply withinSound_of_advanced
      refine withinAdvanced_bind_right (withinTouches_applyMetadataPatch id changes _ _ _)
        fun _ => ?_
      exact withinAdvanced_incrementRecordRevision id "saving"

/-- Replacing memberships states the new scope in the update, so the update has
fields. -/
theorem withinSound_replaceContextsForUpdate {id : MemoryId} {update : MemoryUpdate}
    {patch : Option MetadataPatch} {contextIds : List ContextId} {principal : String}
    {contextAudit : Option ContextAuditDraft} {revisionAt : Instant}
    (metadataOnly : update.metadataOnly = true) :
    Within Sound (replaceContextsForUpdate id update patch contextIds principal contextAudit
      revisionAt) := by
  have noScope : update.sourceConversation = none := by
    simp only [MemoryUpdate.metadataOnly, MemoryUpdate.hasColumnUpdates, Bool.and_eq_true,
      Bool.not_eq_true', Bool.or_eq_false_iff, Option.isSome_eq_false_iff,
      Option.isNone_iff_eq_none] at metadataOnly
    exact metadataOnly.1.2
  refine Within.bind Within.expect fun _ => Within.bind Within.expect fun scope => ?_
  intro state value next ran
  obtain ⟨_, _, checked, _⟩ := bind_eq_ok.mp ran
  have stated := (require_eq_ok.mp checked).1
  simp [noScope] at stated

theorem withinTouches_replaceContextsForUpdate (id : MemoryId) (update : MemoryUpdate)
    (patch : Option MetadataPatch) (contextIds : List ContextId) (principal : String)
    (contextAudit : Option ContextAuditDraft) (revisionAt : Instant) :
    Within (Touches Ordered id)
      (replaceContextsForUpdate id update patch contextIds principal contextAudit revisionAt) := by
  refine Within.bind Within.expect fun _ => ?_
  refine Within.bind Within.expect fun _ => ?_
  exact Within.bind Within.require fun _ => withinTouches_replaceMemoryContextsTx _ _ _ _ _ _

theorem withinSound_updateAuthorizedWithMetadata (id : MemoryId) (update : MemoryUpdate)
    (patch : Option MetadataPatch) (principal : String) (audit : Option AuditDraft)
    (now : Instant) :
    Within Sound (updateAuthorizedWithMetadata id update patch principal audit now) := by
  refine Within.bind Within.reads fun existing => ?_
  split
  · exact Within.pure
  · split
    · refine Within.bind (readsOnly_validateCompatibilityCacheUpdate _ _ _).within fun _ => ?_
      cases metadataOnly : update.metadataOnly with
      | false =>
          apply withinSound_of_advanced
          refine withinAdvanced_bind_left (withinAdvanced_applyUpdateInner metadataOnly)
            fun _ => ?_
          split
          · refine Within.bind withinTouches_applyPatchAfterUpdate fun _ => ?_
            refine Within.bind (Within.onSome fun _ _ => ?_) fun _ => Within.pure
            exact withinTouches_of_sound (withinSound_insertAuditDraft _ _)
          · exact Within.pure
      | true =>
          refine Within.bind (readsOnly_applyUpdateInner metadataOnly).within fun _ => ?_
          split
          · refine Within.bind (withinSound_applyPatchAfterUpdate metadataOnly) fun _ => ?_
            refine Within.bind (Within.onSome fun _ _ => ?_) fun _ => Within.pure
            exact withinSound_insertAuditDraft _ _
          · exact Within.pure
    · exact Within.pure

theorem withinSound_updateAuthorizedWithMetadataContexts (id : MemoryId) (update : MemoryUpdate)
    (patch : Option MetadataPatch) (contextIds : Option (List ContextId)) (principal : String)
    (audit : AuditDraft) (contextAudit : Option ContextAuditDraft) (now : Instant) :
    Within Sound (updateAuthorizedWithMetadataContexts id update patch contextIds principal audit
      contextAudit now) := by
  refine Within.bind Within.require fun _ => ?_
  refine Within.bind Within.reads fun existing => ?_
  split
  · exact Within.pure
  · split
    · refine Within.bind (Within.onSome fun _ _ =>
        (readsOnly_validateCompatibilityCacheUpdate _ _ _).within) fun _ => ?_
      cases metadataOnly : update.metadataOnly with
      | false =>
          apply withinSound_of_advanced
          refine withinAdvanced_bind_left (withinAdvanced_applyUpdateInner metadataOnly)
            fun _ => ?_
          split
          · refine Within.bind withinTouches_applyPatchAfterUpdate fun _ => ?_
            refine Within.bind (Within.onSome fun _ _ =>
              withinTouches_replaceContextsForUpdate _ _ _ _ _ _ _) fun _ => ?_
            refine Within.bind ?_ fun _ => Within.pure
            exact withinTouches_of_sound (withinSound_insertAuditDraft _ _)
          · exact Within.pure
      | true =>
          refine Within.bind (readsOnly_applyUpdateInner metadataOnly).within fun _ => ?_
          split
          · refine Within.bind (withinSound_applyPatchAfterUpdate metadataOnly) fun _ => ?_
            refine Within.bind (Within.onSome fun _ _ =>
              withinSound_replaceContextsForUpdate metadataOnly) fun _ => ?_
            exact Within.bind (withinSound_insertAuditDraft _ _) fun _ => Within.pure
          · exact Within.pure
    · exact Within.pure

/-! ## Optimistic updates -/

omit [Host] in
theorem withinSound_storeReplacementEmbedding (dimensions : Nat)
    (activeProfile : Option EmbeddingProfile) (id : MemoryId) (embedding : Embedding) :
    Within Sound (storeReplacementEmbedding dimensions activeProfile id embedding) := by
  refine Within.bind (Within.onSome fun _ _ => (readsOnly_ensureEmbeddingProfileMatches _).within)
    fun _ => ?_
  refine Within.bind (withinSound_vectorUpsert dimensions id embedding) fun _ => ?_
  refine Within.bind ?_ fun _ => Within.require
  exact withinSound_updateMemoryWhere (fun _ => rfl) fun _ => rfl

theorem withinTouches_replaceContextsOptimistically (id : MemoryId) (contextIds : List ContextId)
    (principal : String) (contextAudit : Option ContextAuditDraft) (revisionAt : Instant) :
    Within (Touches Ordered id)
      (replaceContextsOptimistically id contextIds principal contextAudit revisionAt) := by
  refine Within.bind Within.expect fun _ => ?_
  refine Within.bind (readsOnly_optimisticCompatibilityScope _).within fun scope => ?_
  intro state value next ran
  obtain ⟨existing, middle, metadataRan, ran⟩ := bind_eq_ok.mp ran
  cases reads_eq_ok.mp metadataRan
  have sameId : (((state.metadata.find? id).map (·.metadata)).getD
      (blankMetadata id principal)).memoryId = id := by
    cases found : state.metadata.find? id with
    | none => rfl
    | some row =>
        have rowKey := Table.find?_key found
        exact rowKey
  obtain ⟨_, middle, upsertRan, ran⟩ := bind_eq_ok.mp ran
  have upserted := withinTouches_upsertMetadata _ _ upsertRan
  rw [show ({ ((state.metadata.find? id).map (·.metadata)).getD (blankMetadata id principal) with
    scopeKey := some scope } : MemoryMetadata).memoryId = id from sameId] at upserted
  exact IsTrans.trans _ _ _ upserted (withinTouches_replaceMemoryContextsTx _ _ _ _ _ _ ran)

theorem withinSound_reviseUnmodified (dimensions : Nat) (activeProfile : Option EmbeddingProfile)
    (id : MemoryId) (update : MemoryUpdate) (patch : Option MetadataPatch)
    (contextIds : Option (List ContextId)) (embedding : Option Embedding) (existing : Memory)
    (principal : String) (audit : AuditDraft) (contextAudit : Option ContextAuditDraft)
    (revisionAt : Instant) :
    Within Sound (reviseUnmodified dimensions activeProfile id update patch contextIds embedding
      existing principal audit contextAudit revisionAt) := by
  have patched : Within (Touches Ordered id) (onSome patch fun changes =>
      applyMetadataPatch id changes existing.provenance.sourceConversation principal
        revisionAt) :=
    Within.onSome fun _ _ => withinTouches_applyMetadataPatch _ _ _ _ _
  have embedded : Within Sound (onSome embedding
      (storeReplacementEmbedding dimensions activeProfile id)) :=
    Within.onSome fun _ _ => withinSound_storeReplacementEmbedding _ _ _ _
  have regrouped : Within (Touches Ordered id) (onSome contextIds fun ids =>
      replaceContextsOptimistically id ids principal contextAudit revisionAt) :=
    Within.onSome fun _ _ => withinTouches_replaceContextsOptimistically _ _ _ _ _
  have audited : Within Sound (insertAuditDraft id
      (updateAuditDraftForLockedMemory audit update existing)) :=
    withinSound_insertAuditDraft _ _
  have advanced := withinAdvanced_incrementRecordRevision id "saving"
  cases metadataOnly : update.metadataOnly with
  | false =>
      apply withinSound_of_advanced
      refine withinAdvanced_bind_left (withinAdvanced_applyUpdateInner metadataOnly) fun _ => ?_
      refine Within.bind (withinTouches_of_sound embedded) fun _ => ?_
      refine Within.bind patched fun _ => ?_
      refine Within.bind (Within.onSome fun _ _ =>
        withinTouches_of_sound (withinSound_of_advanced advanced)) fun _ => ?_
      refine Within.bind regrouped fun _ => ?_
      exact Within.bind (withinTouches_of_sound audited) fun _ => Within.pure
  | true =>
      refine Within.bind (readsOnly_applyUpdateInner metadataOnly).within fun _ => ?_
      refine Within.bind embedded fun _ => ?_
      cases changes : patch.isSome || contextIds.isSome with
      | true =>
          apply withinSound_of_advanced
          refine withinAdvanced_bind_right patched fun _ => ?_
          simp only [metadataOnly, Bool.and_self, if_true]
          refine withinAdvanced_bind_left advanced fun _ => ?_
          refine Within.bind regrouped fun _ => ?_
          exact Within.bind (withinTouches_of_sound audited) fun _ => Within.pure
      | false =>
          simp only [Bool.or_eq_false_iff, Option.isSome_eq_false_iff,
            Option.isNone_iff_eq_none] at changes
          obtain ⟨rfl, rfl⟩ := changes
          refine Within.bind Within.pure fun _ => ?_
          refine Within.bind Within.pure fun _ => ?_
          refine Within.bind Within.pure fun _ => ?_
          exact Within.bind audited fun _ => Within.pure

theorem withinSound_updateAuthorizedIfUnmodified (dimensions : Nat)
    (activeProfile : Option EmbeddingProfile) (id : MemoryId) (expectedRevision : Int)
    (update : MemoryUpdate) (patch : Option MetadataPatch) (contextIds : Option (List ContextId))
    (embedding : Option Embedding) (principal : String) (audit : AuditDraft)
    (contextAudit : Option ContextAuditDraft) (now : Instant) :
    Within Sound (updateAuthorizedIfUnmodified dimensions activeProfile id expectedRevision update
      patch contextIds embedding principal audit contextAudit now) := by
  refine Within.bind Within.require fun _ => ?_
  refine Within.bind (Within.onSome fun _ _ => (readsOnly_validateEmbeddingVector _ _).within)
    fun _ => ?_
  refine Within.bind Within.require fun _ => ?_
  refine Within.bind Within.reads fun existing => ?_
  split
  · exact Within.pure
  · split
    · refine Within.bind Within.require fun _ => ?_
      refine Within.bind (Within.onSome fun _ _ =>
        (readsOnly_validateCompatibilityCacheUpdate _ _ _).within) fun _ => ?_
      exact withinSound_reviseUnmodified _ _ _ _ _ _ _ _ _ _ _ _
    · exact Within.pure

theorem withinSound_replaceMemoryContexts (id : MemoryId) (contextIds : List ContextId)
    (principal : String) (audit : ContextAuditDraft) (now : Instant) :
    Within Sound (replaceMemoryContexts id contextIds principal audit now) := by
  refine Within.bind (readsOnly_validateAuditActor _ _).within fun _ => ?_
  refine Within.bind Within.require fun _ => ?_
  refine Within.bind Within.reads fun existing => ?_
  split
  · exact Within.pure
  · split
    · refine Within.bind Within.reads fun _ => ?_
      refine Within.bind (readsOnly_requireUsableContexts _ _ _).within fun _ => ?_
      apply withinSound_of_advanced
      refine withinAdvanced_bind_right (withinTouches_deleteMembershipRows id) fun _ => ?_
      refine withinAdvanced_bind_right (withinTouches_insertMembershipRows _ _ _) fun _ => ?_
      refine withinAdvanced_bind_right (readsOnly_primaryContextKey _).within fun _ => ?_
      refine withinAdvanced_bind_right (withinTouches_setMetadataScope _ _ _) fun _ => ?_
      refine withinAdvanced_bind_left ?_ fun _ => ?_
      · exact withinAdvanced_updateMemory fun row => Int.lt_succ row.recordRevision
      · refine Within.bind ?_ fun _ => Within.pure
        exact withinTouches_of_sound (withinSound_insertContextAudit _ _ _ _)
    · exact Within.pure

end Governed

/-! ## Deletion, supersession and counters -/

theorem withinSound_bulkUpdateIds (ids : List MemoryId) (update : MemoryUpdate)
    (principal : String) (audit : Option AuditDraft) (now : Instant) :
    Within Sound (bulkUpdateIds ids update principal audit now) := by
  apply Within.foldlM
  intro outcome id _
  refine Within.bind Within.reads fun existing => ?_
  split
  · exact Within.pure
  · split
    · refine Within.bind (readsOnly_validateCompatibilityCacheUpdate _ _ _).within fun _ => ?_
      refine Within.bind (withinSound_applyUpdateInner _ _ _) fun _ => ?_
      refine Within.bind (Within.onSome fun _ _ => ?_) fun _ => Within.pure
      exact withinSound_insertAuditDraft _ _
    · exact Within.pure

theorem withinSound_markSupersededByAuthorized (id supersededBy : MemoryId) (principal : String)
    (audit : Option AuditDraft) :
    Within Sound (markSupersededByAuthorized id supersededBy principal audit) := by
  refine Within.bind Within.reads fun existing => ?_
  split
  · exact Within.pure
  · split
    · refine Within.bind (withinSound_markSuperseded _ _) fun _ => ?_
      refine Within.bind (Within.onSome fun _ _ => ?_) fun _ => Within.pure
      exact withinSound_insertAuditDraft _ _
    · exact Within.pure

theorem withinSound_markSupersededIfUnchanged (member representative : ConsolidationSnapshot)
    (principal : String) (audit : AuditDraft) :
    Within Sound (markSupersededIfUnchanged member representative principal audit) := by
  refine Within.bind Within.require fun _ => ?_
  refine Within.bind Within.require fun _ => ?_
  refine Within.bind Within.reads fun existing => ?_
  split
  · exact Within.pure
  · refine Within.bind Within.reads fun other => ?_
    split
    · exact Within.pure
    · split
      · refine Within.bind Within.reads fun _ => ?_
        refine Within.bind Within.reads fun _ => ?_
        refine Within.bind Within.require fun _ => ?_
        refine Within.bind (withinSound_markSuperseded _ _) fun _ => ?_
        refine Within.bind (Within.onSome fun _ _ => ?_) fun _ => Within.pure
        exact withinSound_insertAuditDraft _ _
      · exact Within.pure

theorem withinSound_recordSearchImpression (ids : List MemoryId) (now : Instant) :
    Within Sound (recordSearchImpression ids now) := by
  apply Within.forM
  intro id _
  refine Within.bind ?_ fun _ => Within.pure
  exact withinSound_updateMemoryWhere (fun _ => rfl) fun _ => rfl

theorem withinSound_recordMemoryUse (decayMass : ℚ → Option Instant → Instant → ℚ)
    (ids : List MemoryId) (principal : String) (eventWeight : ℚ) (now : Instant) :
    Within Sound (recordMemoryUse decayMass ids principal eventWeight now) := by
  apply Within.foldlM
  intro outcome id _
  refine Within.bind Within.reads fun existing => ?_
  split
  · exact Within.pure
  · split
    · exact Within.pure
    · refine Within.bind ?_ fun _ => Within.pure
      exact withinSound_updateMemoryWhere (fun _ => rfl) fun _ => rfl

/-! ## Embeddings -/

theorem withinSound_setEmbedding (dimensions : Nat) (activeProfile : Option EmbeddingProfile)
    (id : MemoryId) (embedding : Embedding) (expectedRevision : Int) :
    Within Sound (setEmbedding dimensions activeProfile id embedding expectedRevision) := by
  refine Within.bind (readsOnly_validateEmbeddingVector _ _).within fun _ => ?_
  refine Within.bind (Within.onSome fun _ _ => (readsOnly_ensureEmbeddingProfileMatches _).within)
    fun _ => ?_
  refine Within.bind Within.reads fun _ => ?_
  refine Within.bind Within.expect fun _ => ?_
  refine Within.bind Within.require fun _ => ?_
  refine Within.bind (withinSound_vectorUpsert _ _ _) fun _ => ?_
  refine Within.bind ?_ fun _ => Within.require
  exact withinSound_updateMemoryWhere (fun _ => rfl) fun _ => rfl

theorem withinSound_verifyEmbeddingProfile (profile : EmbeddingProfile) :
    Within Sound (verifyEmbeddingProfile profile) := by
  refine Within.bind Within.reads fun existing => ?_
  split
  · exact Within.require
  · refine Within.bind Within.reads fun _ => ?_
    refine Within.bind Within.require fun _ => ?_
    exact Within.bind Within.require fun _ => withinSound_writes fun _ => rfl

theorem withinSound_reindexEmbeddings (profile : EmbeddingProfile) :
    Within Sound (reindexEmbeddings profile) := by
  refine Within.bind (Within.writes fun db id => ?_) fun _ => ?_
  · have rowsKept : Related Tracked id db
        { db with
          memories := db.memories.updateWhere (fun _ => true) MemoryRow.withoutEmbedding
            fun _ => rfl } :=
      @Sound.of_updateWhere db (fun _ => true) MemoryRow.withoutEmbedding (fun _ => rfl)
        (fun _ => rfl) (fun _ => rfl) id
    exact
      { kept := rowsKept.kept
        gone := rowsKept.gone
        fresh := rowsKept.fresh
        tombstone := rowsKept.tombstone }
  · exact Within.bind Within.require fun _ => withinSound_writes fun _ => rfl

theorem withinSound_releaseEmbeddingClaim (id : MemoryId) (expectedRevision : Int)
    (token : String) : Within Sound (releaseEmbeddingClaim id expectedRevision token) :=
  withinSound_updateMemoryWhere (fun _ => rfl) fun _ => rfl

section Administration

variable [Host]

theorem withinSound_claimForReembed (principal : Option String) (limit : Nat) (token : String)
    (now : Instant) : Within Sound (claimForReembed principal limit token now) := by
  refine Within.bind Within.reads fun _ => ?_
  refine Within.bind (Within.writes fun db => ?_) fun _ => Within.pure
  exact Sound.of_updateWhere (fun _ => rfl) fun _ => rfl

omit [Host] in
theorem withinSound_upsertMetadataAudited (metadata : MemoryMetadata) (audit : Option AuditDraft)
    (now : Instant) : Within Sound (upsertMetadataAudited metadata audit now) := by
  refine Within.bind Within.reads fun _ => ?_
  refine Within.bind Within.expect fun _ => ?_
  refine Within.bind Within.reads fun _ => ?_
  refine Within.bind Within.require fun _ => ?_
  apply withinSound_of_advanced
  refine withinAdvanced_bind_right (withinTouches_upsertMetadata metadata now) fun _ => ?_
  refine withinAdvanced_bind_left (withinAdvanced_incrementRecordRevision _ _) fun _ => ?_
  exact Within.onSome fun _ _ => withinTouches_of_sound (withinSound_insertAuditDraft _ _)

omit [Host] in
theorem withinSound_insertMigratedMetadata (row : PreparedMigrationMetadata)
    (audit : Option AuditDraft) (now : Instant) :
    Within Sound (insertMigratedMetadata row audit now) := by
  refine Within.bind Within.reads fun _ => ?_
  split
  · exact Within.pure
  · refine Within.bind Within.reads fun _ => ?_
    refine Within.bind Within.require fun _ => ?_
    refine @withinSound_of_advanced _ row.id _ ?_
    refine withinAdvanced_bind_right (Within.writes fun db => ?_) fun _ => ?_
    · refine Touches.of_attachments rfl rfl fun other different => ?_
      simp only [Db.attachments, Attachments.mk.injEq, true_and, and_true]
      exact Table.find?_insertOrIgnore_of_ne different
    · refine withinAdvanced_bind_left (withinAdvanced_incrementRecordRevision _ _) fun _ => ?_
      refine Within.bind (Within.onSome fun _ _ => ?_) fun _ => Within.pure
      exact withinTouches_of_sound (withinSound_insertAuditDraft _ _)

theorem withinSound_migrateMetadata (dryRun : Bool) (audit : Option AuditDraft) (now : Instant) :
    Within Sound (migrateMetadata dryRun audit now) := by
  refine Within.bind Within.reads fun _ => ?_
  refine Within.bind Within.reads fun _ => ?_
  split
  · exact Within.pure
  · refine Within.bind (Within.mapM fun _ _ => ?_) fun _ => Within.pure
    exact withinSound_insertMigratedMetadata _ _ _

omit [Host] in
theorem withinSound_reassignMemory (target : ContextId) (targetKey fromScope principal : String)
    (audit : Option AuditDraft) (now : Instant) (id : MemoryId) :
    Within Sound (reassignMemory target targetKey fromScope principal audit now id) := by
  apply withinSound_of_advanced
  refine withinAdvanced_bind_right
    (withinTouches_updateProvenance id fun provenance => provenance.reassigned targetKey)
    fun _ => ?_
  refine withinAdvanced_bind_left (withinAdvanced_incrementRecordRevision _ _) fun _ => ?_
  refine Within.bind (withinTouches_setMetadataScope _ _ _) fun _ => ?_
  refine Within.bind Within.reads fun _ => ?_
  refine Within.bind (withinTouches_deleteMembershipRows _) fun _ => ?_
  refine Within.bind (withinTouches_insertMembershipRows _ _ _) fun _ => ?_
  refine Within.bind (withinTouches_of_sound (withinSound_insertContextAudit _ _ _ _)) fun _ => ?_
  exact Within.onSome fun _ _ => withinTouches_of_sound (withinSound_insertAuditDraft _ _)

theorem withinSound_applyReassignScope (newId : ContextId) (fromScope toScope : String)
    (origin : Option String) (principal : String) (audit : Option AuditDraft) (now : Instant) :
    Within Sound (applyReassignScope newId fromScope toScope origin principal audit now) := by
  refine Within.bind Within.reads fun _ => ?_
  split
  · exact Within.pure
  · refine Within.bind (withinSound_of_leavesMemories
      (leavesMemories_resolveOrCreatePrivateLegacyContext _ _ _ _)) fun _ => ?_
    refine Within.bind Within.reads fun _ => ?_
    refine Within.bind Within.expect fun _ => ?_
    refine Within.bind (Within.forM fun _ _ => ?_) fun _ => Within.pure
    exact withinSound_reassignMemory _ _ _ _ _ _ _

end Administration

end LocalHold
