import LocalHold.Store.IndexStatements

/-!
# The vector index under the store's commands

Every command keeps the vector index well formed, never lowers an embedding
revision, raises it with every change of content, and leaves no vector on a
memory but one that was there before, next to the same content, or one that the
command was given.
-/

namespace LocalHold

open Relational Transition Transition.Txn

variable {written : MemoryId → EmbeddingView → Prop}

/-! ## Storing -/

theorem insertMemoryRow_ok {row : MemoryRow} {db next : Db} {value : Unit}
    (ran : insertMemoryRow row db = .ok (value, next)) :
    ∃ memories, db.memories.insert? row = some memories ∧
      next = { db with memories := memories } := by
  have attempted := of_reads_bind ran
  obtain ⟨memories, inserted, writeRan⟩ := of_expect_bind attempted
  cases writes_eq_ok.mp writeRan
  exact ⟨memories, inserted, rfl⟩

theorem MapOk.unmapped {db : Db} {id : MemoryId} (mapOk : MapOk db)
    (absent : db.memories.contains id = false) : db.embeddingMap.contains id = false := by
  rw [Table.contains_eq_false_iff]
  intro mapping mappingMem keyEq
  have present := (mapOk.mapped mapping mappingMem).1
  rw [keyEq, absent] at present
  cases present

/-- What a new row needs: its flag agrees with the vector written for it. -/
theorem Growing.of_inserted {id : MemoryId} {row : MemoryRow} {db next : Db}
    (onlyAt : OnlyAt id db next) (absent : db.memories.contains id = false)
    (found : next.memories.find? id = some row)
    (flagOk : row.hasEmbedding = 1 ↔ next.embeddingMap.contains id = true)
    (wrote : row.hasEmbedding = 1 → written id ⟨row.content, row.embeddingRevision,
      next.vectorOf id, next.embeddingProfile⟩) :
    Growing written db next := by
  have missing : db.embeddingView id = none := by
    rw [Db.embeddingView_eq_none_iff, Db.indexed_eq_none_iff]
    exact absent
  apply onlyAt.growing
  intro _
  refine ⟨?_, ⟨?_, ?_⟩⟩
  · intro other otherFound
    rw [found] at otherFound
    cases otherFound
    exact flagOk
  · intro old new oldView _
    rw [missing] at oldView
    cases oldView
  · intro new _ newView
    simp only [Db.embeddingView, Db.indexed, found, Option.map_some, Option.some.injEq,
      MemoryRow.indexedColumns] at newView
    subst newView
    by_cases flag : row.hasEmbedding = 1
    · rw [if_pos flag]
      exact Or.inr (wrote flag)
    · exact Or.inl (if_neg flag)

theorem withinGrowing_insertPrepared (dimensions : Nat) {item : MemoryWithEmbedding}
    (wrote : ∀ embedding profile, item.embedding = some embedding →
      written item.memory.id ⟨item.memory.content, 0, some embedding, profile⟩) :
    Within (Growing written) (insertPrepared dimensions item) := by
  intro db value next ran indexOk
  obtain ⟨_, _, insertRan, vectorRan⟩ := bind_eq_ok.mp ran
  have inserts : OnlyAt item.memory.id db _ := withinOnlyAt_insertMemoryRow _ insertRan
  obtain ⟨memories, inserted, rfl⟩ := insertMemoryRow_ok insertRan
  obtain ⟨_, middle, upsertRan, entitiesRan⟩ := bind_eq_ok.mp vectorRan
  have absent : db.memories.contains item.memory.id = false :=
    (Table.insert?_eq_some_iff.mp inserted).1
  have found : memories.find? item.memory.id = some (preparedMemoryRow item) := by
    rw [Table.find?_insert? inserted]
    exact if_pos rfl
  have entities : Growing written middle next :=
    withinGrowing_of_keepsIndex (keepsIndex_insertEntities _ _) entitiesRan
  refine IsTrans.trans _ _ _ (?_ : Growing written db middle) entities indexOk
  cases embeddingEq : item.embedding with
  | none =>
      simp only [embeddingEq, onSome] at upsertRan
      cases pure_eq_ok.mp upsertRan
      refine Growing.of_inserted inserts absent found ?_ ?_
      · have unmapped := indexOk.toMapOk.unmapped absent
        simp [preparedMemoryRow, embeddingEq, unmapped]
      · simp [preparedMemoryRow, embeddingEq]
  | some embedding =>
      simp only [embeddingEq, onSome] at upsertRan
      obtain ⟨upserted, sameMemories, vectorEq, mapped⟩ :=
        vectorUpsert_settles (inserts.mapOk indexOk.toMapOk) upsertRan
      have foundAfter : middle.memories.find? item.memory.id = some (preparedMemoryRow item) := by
        rw [sameMemories]
        exact found
      refine Growing.of_inserted (IsTrans.trans _ _ _ inserts upserted) absent foundAfter ?_ ?_
      · simp [preparedMemoryRow, embeddingEq, mapped]
      · intro _
        rw [vectorEq]
        exact wrote embedding middle.embeddingProfile embeddingEq

/-! ## Deleting -/

theorem Db.indexed_dropMemory {db : Db} {id other : MemoryId} :
    (db.dropMemory id).indexed other = if other = id then none else db.indexed other := by
  simp only [Db.indexed, Db.dropMemory, Table.find?_updateWhere, Table.find?_delete,
    Option.map_map]
  by_cases equal : other = id
  · simp [equal]
  · rw [if_neg equal, if_neg equal]
    cases found : db.memories.find? other with
    | none => rfl
    | some row =>
        simp only [Option.map_some, Function.comp_apply]
        split <;> rfl

/-- A deleted memory takes its map row and its vector with it. -/
theorem Db.shrinking_dropMemory (db : Db) (id : MemoryId) : Shrinking db (db.dropMemory id) := by
  intro indexOk
  have dropped := indexOk.toMapOk.dropEmbedding id
  have map : (db.dropMemory id).embeddingMap = (db.dropEmbedding id).embeddingMap := rfl
  have vectors : (db.dropMemory id).embeddings = (db.dropEmbedding id).embeddings := rfl
  have unmapped : (db.dropMemory id).embeddingMap.contains id = false := by
    rw [map, Db.dropEmbedding_embeddingMap, Table.contains_delete]
    simp
  have mapOk : MapOk (db.dropMemory id) := by
    refine ⟨?_, dropped.named, dropped.unshared⟩
    intro mapping mappingMem
    obtain ⟨memory, vector⟩ := dropped.mapped mapping mappingMem
    refine ⟨?_, vector⟩
    have different : mapping.memoryId ≠ id := by
      intro equal
      exact Table.contains_eq_false_iff.mp unmapped mapping mappingMem equal
    have kept : (db.dropMemory id).indexed mapping.memoryId = db.indexed mapping.memoryId := by
      rw [Db.indexed_dropMemory, if_neg different]
    rw [Db.contains_eq_of_indexed kept]
    rw [Db.dropEmbedding_memories] at memory
    exact memory
  refine ⟨⟨mapOk, fun other => ?_⟩, fun other => ?_⟩
  · by_cases equal : other = id
    · subst equal
      intro row found
      have absent : (db.dropMemory other).indexed other = none := by
        rw [Db.indexed_dropMemory, if_pos rfl]
      simp [Db.indexed, found] at absent
    · refine (indexOk.flagged other).of_indexed ?_ ?_
      · rw [Db.indexed_dropMemory, if_neg equal]
      · rw [map, Db.dropEmbedding_embeddingMap, Table.contains_delete]
        simp [equal]
  · by_cases equal : other = id
    · left
      rw [Db.embeddingView_eq_none_iff, Db.indexed_dropMemory, if_pos equal]
    · right
      have sameVector : (db.dropMemory id).vectorOf other = db.vectorOf other :=
        Db.vectorOf_dropEmbedding indexOk.toMapOk equal
      have sameProfile : (db.dropMemory id).embeddingProfile = db.embeddingProfile :=
        db.dropEmbedding_embeddingProfile id
      simp only [Db.embeddingView, Db.indexed_dropMemory, if_neg equal, sameVector, sameProfile]

theorem withinShrinking_entombMemory (memory : Memory) (deletedAt : Instant)
    (deletedBy : Option String) : Within Shrinking (entombMemory memory deletedAt deletedBy) := by
  refine Within.bind (withinShrinking_of_keepsIndex (keepsIndex_insertTombstone _ _ _))
    fun _ => ?_
  refine Within.bind Within.reads fun affected => ?_
  split
  · exact Within.bind (Within.writes fun db => db.shrinking_dropMemory memory.id)
      fun _ => Within.pure
  · exact Within.pure

/-! ## Updating -/

theorem MemoryUpdate.setClause_id (update : MemoryUpdate) (now : Instant) (row : MemoryRow) :
    (update.setClause now row).id = row.id :=
  rfl

theorem MemoryUpdate.indexedColumns_setClause {update : MemoryUpdate} (noContent : update.content = none)
    (now : Instant) (row : MemoryRow) :
    (update.setClause now row).indexedColumns = row.indexedColumns := by
  simp [MemoryUpdate.setClause, MemoryRow.indexedColumns, noContent]

theorem keepsIndex_applyUpdateInner {id : MemoryId} {update : MemoryUpdate} {now : Instant}
    (noContent : update.content = none) : KeepsIndex (applyUpdateInner id update now) := by
  refine Within.bind ?_ fun affected => ?_
  · unfold applyUpdateColumns
    split
    · exact keepsIndex_updateMemoryWhere (MemoryUpdate.indexedColumns_setClause noContent now)
    · split
      · exact keepsIndex_updateMemoryWhere fun _ => rfl
      · exact Within.reads
  · split
    · simp only [dropStaleEmbedding, noContent]
      refine Within.bind Within.pure fun _ => ?_
      refine Within.bind (Within.onSome fun _ _ => ?_) fun _ => Within.pure
      exact keepsIndex_replaceEntities _ _
    · exact Within.pure

theorem embeddingRevision_ok {id : MemoryId} {db next : Db} {revision : Int}
    (ran : embeddingRevision id db = .ok (revision, next)) :
    next = db ∧ ∃ row, db.memories.find? id = some row ∧ row.embeddingRevision = revision := by
  have read := of_reads_bind ran
  obtain ⟨row, found, returned⟩ := of_expect_bind read
  cases pure_eq_ok.mp returned
  exact ⟨rfl, row, found, rfl⟩

/-- What an update with new content does to the index, before entities. -/
theorem applyUpdateInner_ok {id : MemoryId} {update : MemoryUpdate} {now : Instant}
    {content : String} {db next : Db} {result : AuthorizedUpdateOutcome}
    (newContent : update.content = some content)
    (ran : applyUpdateInner id update now db = .ok (result, next)) :
    let updated := { db with
      memories := db.memories.updateWhere (fun row => decide (row.id = id) && true)
        (update.setClause now) (update.setClause_id now) }
    (db.memories.contains id = false ∧ result.reembedRevision = none ∧ next = updated) ∨
      (db.memories.contains id = true ∧
        (∀ revision, result.reembedRevision = some revision →
          ∃ row, db.memories.find? id = some row ∧
            (update.setClause now row).embeddingRevision = revision) ∧
        Keeps Db.indexSide (updated.dropEmbedding id) next) := by
  have columns : update.hasColumnUpdates = true := by
    simp [MemoryUpdate.hasColumnUpdates, newContent]
  obtain ⟨affected, _, columnsRan, rest⟩ := bind_eq_ok.mp ran
  simp only [applyUpdateColumns, columns, if_true] at columnsRan
  have checked := of_reads_bind columnsRan
  obtain ⟨_, _, writeRan, returned⟩ := bind_eq_ok.mp checked
  cases writes_eq_ok.mp writeRan
  obtain ⟨affectedEq, rfl⟩ := Prod.mk.inj (pure_eq_ok.mp returned)
  have present : db.memories.contains id = affected := by
    rw [← affectedEq]
    cases found : db.memories.find? id <;> simp [Table.contains, found]
  simp only at rest
  split at rest
  case isTrue applied =>
    obtain ⟨revision, _, dropRan, rest⟩ := bind_eq_ok.mp rest
    simp only [dropStaleEmbedding, newContent, Option.isSome_some, if_true, vectorDelete,
      deleteEmbeddingMapRow] at dropRan
    obtain ⟨_, _, deleteRan, revisionRan⟩ := bind_eq_ok.mp dropRan
    cases writes_eq_ok.mp deleteRan
    obtain ⟨current, readRan, done⟩ := (readsOnly_embeddingRevision id).of_bind revisionRan
    cases pure_eq_ok.mp done
    obtain ⟨_, _, entitiesRan, finished⟩ := bind_eq_ok.mp rest
    have entities : KeepsIndex (onSome update.entities (replaceEntities id)) :=
      Within.onSome fun _ _ => keepsIndex_replaceEntities _ _
    have kept := entities entitiesRan
    cases pure_eq_ok.mp finished
    refine Or.inr ⟨present.trans applied, fun revision revisionEq => ?_, kept⟩
    cases revisionEq
    obtain ⟨_, row, found, rowRevision⟩ := embeddingRevision_ok readRan
    have updatedFound : (db.memories.updateWhere (fun row => decide (row.id = id) && true)
        (update.setClause now) (update.setClause_id now)).find? id = some row := by
      rw [Db.dropEmbedding_memories] at found
      exact found
    rw [find?_updateById] at updatedFound
    obtain ⟨old, oldFound, rfl⟩ := Option.map_eq_some_iff.mp updatedFound
    exact ⟨old, oldFound, rowRevision⟩
  case isFalse refused =>
    cases pure_eq_ok.mp rest
    exact Or.inl ⟨present.trans (by simpa using refused), rfl, rfl⟩

theorem withinGrowing_applyUpdateInner (id : MemoryId) (update : MemoryUpdate) (now : Instant) :
    Within (Growing written) (applyUpdateInner id update now) := by
  cases content : update.content with
  | none => exact withinGrowing_of_keepsIndex (keepsIndex_applyUpdateInner content)
  | some text =>
      intro db result next ran
      rcases applyUpdateInner_ok content ran with ⟨absent, _, rfl⟩ | ⟨_, _, kept⟩
      · have unchanged : Keeps Db.indexSide db { db with
            memories := db.memories.updateWhere (fun row => decide (row.id = id) && true)
              (update.setClause now) (update.setClause_id now) } := by
          simp only [Keeps, Db.indexSide, Table.updateWhere, List.map_map, Prod.mk.injEq, and_true]
          apply List.map_congr_left
          intro row rowMem
          have different := Table.contains_eq_false_iff.mp absent row rowMem
          simp [different]
        exact Growing.of_indexSide unchanged
      · have changed : Growing written db (Db.dropEmbedding { db with
            memories := db.memories.updateWhere (fun row => decide (row.id = id) && true)
              (update.setClause now) (update.setClause_id now) } id) := by
          apply growing_contentChange
          · intro row
            simp [MemoryUpdate.setClause, content]
          · intro row
            simp [MemoryUpdate.setClause, content]
        exact IsTrans.trans _ _ _ changed (Growing.of_indexSide kept)

theorem withinGrowing_applyUpdate (id : MemoryId) (update : MemoryUpdate) (now : Instant) :
    Within (Growing written) (applyUpdate id update now) := by
  unfold applyUpdate
  split
  · exact Within.bind Within.reads fun _ => Within.pure
  · refine Within.bind Within.reads fun existing => ?_
    cases existing with
    | none => exact Within.pure
    | some memory =>
        refine Within.bind (readsOnly_validateCompatibilityCacheUpdate _ _ _).within fun _ => ?_
        exact withinGrowing_applyUpdateInner _ _ _

theorem withinGrowing_insertAuditDraft (id : MemoryId) (audit : AuditDraft) :
    Within (Growing written) (insertAuditDraft id audit) :=
  withinGrowing_of_keepsIndex (keepsIndex_insertAuditDraft id audit)

theorem withinGrowing_updateAuthorized (id : MemoryId) (update : MemoryUpdate)
    (principal : String) (audit : Option AuditDraft) (now : Instant) :
    Within (Growing written) (updateAuthorized id update principal audit now) := by
  refine Within.bind Within.reads fun existing => ?_
  split
  · exact Within.pure
  · split
    · refine Within.bind (readsOnly_validateCompatibilityCacheUpdate _ _ _).within fun _ => ?_
      refine Within.bind (withinGrowing_applyUpdateInner _ _ _) fun _ => ?_
      refine Within.bind (Within.onSome fun _ _ => ?_) fun _ => Within.pure
      exact withinGrowing_insertAuditDraft _ _
    · exact Within.pure

theorem withinGrowing_bulkUpdateIds (ids : List MemoryId) (update : MemoryUpdate)
    (principal : String) (audit : Option AuditDraft) (now : Instant) :
    Within (Growing written) (bulkUpdateIds ids update principal audit now) := by
  apply Within.foldlM
  intro outcome id _
  refine Within.bind Within.reads fun existing => ?_
  split
  · exact Within.pure
  · split
    · refine Within.bind (readsOnly_validateCompatibilityCacheUpdate _ _ _).within fun _ => ?_
      refine Within.bind (withinGrowing_applyUpdateInner _ _ _) fun _ => ?_
      split
      · refine Within.bind (Within.onSome fun _ _ => ?_) fun _ => Within.pure
        exact withinGrowing_insertAuditDraft _ _
      · exact Within.pure
    · exact Within.pure

section Governed

variable [Host]

theorem keepsIndex_applyMetadataPatch (id : MemoryId) (patch : MetadataPatch)
    (fallbackScope : Option String) (principal : String) (now : Instant) :
    KeepsIndex (applyMetadataPatch id patch fallbackScope principal now) :=
  Within.bind (readsOnly_getMetadata id).within fun _ => keepsIndex_upsertMetadata _ now

theorem keepsIndex_applyPatchAfterUpdate (id : MemoryId) (update : MemoryUpdate)
    (patch : Option MetadataPatch) (existing : Memory) (principal : String)
    (revisionAt : Instant) :
    KeepsIndex (applyPatchAfterUpdate id update patch existing principal revisionAt) := by
  refine Within.bind (Within.onSome fun _ _ => keepsIndex_applyMetadataPatch _ _ _ _ _)
    fun _ => Within.onSome fun _ _ => ?_
  exact keepsIndex_incrementRecordRevision id "saving"

theorem keepsIndex_replaceContextsForUpdate (id : MemoryId) (update : MemoryUpdate)
    (patch : Option MetadataPatch) (contextIds : List ContextId) (principal : String)
    (contextAudit : Option ContextAuditDraft) (revisionAt : Instant) :
    KeepsIndex
      (replaceContextsForUpdate id update patch contextIds principal contextAudit revisionAt) := by
  refine Within.bind Within.expect fun _ => ?_
  refine Within.bind Within.expect fun _ => ?_
  exact Within.bind Within.require fun _ => keepsIndex_replaceMemoryContextsTx _ _ _ _ _ _

theorem withinGrowing_updateAuthorizedWithMetadata (id : MemoryId) (update : MemoryUpdate)
    (patch : Option MetadataPatch) (principal : String) (audit : Option AuditDraft)
    (now : Instant) :
    Within (Growing written)
      (updateAuthorizedWithMetadata id update patch principal audit now) := by
  refine Within.bind Within.reads fun existing => ?_
  split
  · exact Within.pure
  · split
    · refine Within.bind (readsOnly_validateCompatibilityCacheUpdate _ _ _).within fun _ => ?_
      refine Within.bind (withinGrowing_applyUpdateInner _ _ _) fun _ => ?_
      split
      · refine Within.bind (withinGrowing_of_keepsIndex
          (keepsIndex_applyPatchAfterUpdate _ _ _ _ _ _)) fun _ => ?_
        refine Within.bind (Within.onSome fun _ _ => ?_) fun _ => Within.pure
        exact withinGrowing_insertAuditDraft _ _
      · exact Within.pure
    · exact Within.pure

theorem withinGrowing_updateAuthorizedWithMetadataContexts (id : MemoryId)
    (update : MemoryUpdate) (patch : Option MetadataPatch) (contextIds : Option (List ContextId))
    (principal : String) (audit : AuditDraft) (contextAudit : Option ContextAuditDraft)
    (now : Instant) :
    Within (Growing written) (updateAuthorizedWithMetadataContexts id update patch contextIds
      principal audit contextAudit now) := by
  refine Within.bind Within.require fun _ => ?_
  refine Within.bind Within.reads fun existing => ?_
  split
  · exact Within.pure
  · split
    · refine Within.bind (Within.onSome fun _ _ =>
        (readsOnly_validateCompatibilityCacheUpdate _ _ _).within) fun _ => ?_
      refine Within.bind (withinGrowing_applyUpdateInner _ _ _) fun _ => ?_
      split
      · refine Within.bind (withinGrowing_of_keepsIndex
          (keepsIndex_applyPatchAfterUpdate _ _ _ _ _ _)) fun _ => ?_
        refine Within.bind (Within.onSome fun _ _ => withinGrowing_of_keepsIndex
          (keepsIndex_replaceContextsForUpdate _ _ _ _ _ _ _)) fun _ => ?_
        exact Within.bind (withinGrowing_insertAuditDraft _ _) fun _ => Within.pure
      · exact Within.pure
    · exact Within.pure

theorem keepsIndex_replaceContextsOptimistically (id : MemoryId) (contextIds : List ContextId)
    (principal : String) (contextAudit : Option ContextAuditDraft) (revisionAt : Instant) :
    KeepsIndex
      (replaceContextsOptimistically id contextIds principal contextAudit revisionAt) := by
  refine Within.bind Within.expect fun _ => ?_
  refine Within.bind (readsOnly_optimisticCompatibilityScope _).within fun scope => ?_
  refine Within.bind (readsOnly_getMetadata id).within fun _ => ?_
  refine Within.bind (keepsIndex_upsertMetadata _ _) fun _ => ?_
  exact keepsIndex_replaceMemoryContextsTx _ _ _ _ _ _

theorem keepsIndex_replaceMemoryContexts (id : MemoryId) (contextIds : List ContextId)
    (principal : String) (audit : ContextAuditDraft) (now : Instant) :
    KeepsIndex (replaceMemoryContexts id contextIds principal audit now) := by
  refine Within.bind (readsOnly_validateAuditActor _ _).within fun _ => ?_
  refine Within.bind Within.require fun _ => ?_
  refine Within.bind Within.reads fun existing => ?_
  split
  · exact Within.pure
  · split
    · refine Within.bind Within.reads fun _ => ?_
      refine Within.bind (readsOnly_requireUsableContexts _ _ _).within fun _ => ?_
      refine Within.bind (keepsIndex_deleteMembershipRows id) fun _ => ?_
      refine Within.bind (keepsIndex_insertMembershipRows _ _ _) fun _ => ?_
      refine Within.bind (readsOnly_primaryContextKey _).within fun _ => ?_
      refine Within.bind (keepsIndex_setMetadataScope _ _ _) fun _ => ?_
      refine Within.bind (keepsIndex_updateMemoryWhere fun _ => rfl) fun _ => ?_
      exact Within.bind (keepsIndex_insertContextAudit _ _ _ _) fun _ => Within.pure
    · exact Within.pure

end Governed

/-! ## Writing vectors -/

/-- A vector written for one memory, under the profile of the writer. -/
structure WritesVector (target : MemoryId) (activeProfile : Option EmbeddingProfile)
    (embedding : Embedding) (id : MemoryId) (view : EmbeddingView) : Prop where
  id_eq : id = target
  vector_eq : view.vector = some embedding
  profile_eq : ∀ profile, activeProfile = some profile → view.profile = some profile

theorem profile_of_ensured {activeProfile : Option EmbeddingProfile} {db : Db}
    {result : Unit × Db}
    (ran : onSome activeProfile ensureEmbeddingProfileMatches db = .ok result) :
    ∀ profile, activeProfile = some profile → db.embeddingProfile = some profile := by
  rintro profile rfl
  have recorded := of_reads_bind ran
  obtain ⟨current, present, checked⟩ := of_expect_bind recorded
  rw [present, beq_iff_eq.mp (require_eq_ok.mp checked).1]

theorem readsOnly_ensureActiveProfile (activeProfile : Option EmbeddingProfile) :
    ReadsOnly (onSome activeProfile ensureEmbeddingProfileMatches) :=
  Within.onSome fun _ _ => readsOnly_ensureEmbeddingProfileMatches _

theorem growing_setEmbedding {dimensions : Nat} {activeProfile : Option EmbeddingProfile}
    {id : MemoryId} {embedding : Embedding} {expectedRevision : Int} {db next : Db} {value : Unit}
    (ran : setEmbedding dimensions activeProfile id embedding expectedRevision db =
      .ok (value, next)) :
    Growing (fun other view => WritesVector id activeProfile embedding other view ∧
      view.embeddingRevision = expectedRevision) db next := by
  obtain ⟨_, _, validated⟩ := (readsOnly_validateEmbeddingVector _ _).of_bind ran
  obtain ⟨_, ensuredRan, ensured⟩ := (readsOnly_ensureActiveProfile _).of_bind validated
  have fetched := of_reads_bind ensured
  obtain ⟨row, found, located⟩ := of_expect_bind fetched
  obtain ⟨current, unchanged⟩ := of_require_bind located
  obtain ⟨_, middle, upsertRan, rest⟩ := bind_eq_ok.mp unchanged
  obtain ⟨affected, _, flagRan, checked⟩ := bind_eq_ok.mp rest
  obtain ⟨affectedEq, stateEq⟩ := require_eq_ok.mp checked
  cases stateEq
  rw [affectedEq] at flagRan
  refine growing_of_flagged upsertRan flagRan (fun _ => rfl) ?_
  intro columns indexed
  have columnsEq : columns = row.indexedColumns := by
    simpa [Db.indexed, found, eq_comm] using indexed
  subst columnsEq
  exact ⟨⟨rfl, rfl, profile_of_ensured ensuredRan⟩, beq_iff_eq.mp current⟩

theorem growing_storeReplacementEmbedding {dimensions : Nat}
    {activeProfile : Option EmbeddingProfile} {id : MemoryId} {embedding : Embedding}
    {content : String} {db next : Db} {value : Unit}
    (ran : storeReplacementEmbedding dimensions activeProfile id embedding db = .ok (value, next))
    (holds : ∀ columns, db.indexed id = some columns → columns.content = content) :
    Growing (fun other view => WritesVector id activeProfile embedding other view ∧
      view.content = content) db next := by
  obtain ⟨_, ensuredRan, ensured⟩ := (readsOnly_ensureActiveProfile _).of_bind ran
  obtain ⟨_, middle, upsertRan, rest⟩ := bind_eq_ok.mp ensured
  obtain ⟨affected, _, flagRan, checked⟩ := bind_eq_ok.mp rest
  obtain ⟨affectedEq, stateEq⟩ := require_eq_ok.mp checked
  cases stateEq
  rw [affectedEq] at flagRan
  refine growing_of_flagged upsertRan flagRan (fun _ => rfl) ?_
  intro columns indexed
  exact ⟨⟨rfl, rfl, profile_of_ensured ensuredRan⟩, holds columns indexed⟩

theorem Growing.mono {strong weak : MemoryId → EmbeddingView → Prop} {before after : Db}
    (growing : Growing strong before after)
    (weaken : ∀ id view, strong id view → weak id view) : Growing weak before after := by
  intro indexOk
  obtain ⟨afterOk, evolves⟩ := growing indexOk
  refine ⟨afterOk, fun id => ⟨⟨?_, ?_⟩, (evolves id).2⟩⟩
  · intro old new oldView newView
    obtain ⟨monotone, bumped, vector⟩ := (evolves id).1.kept old new oldView newView
    exact ⟨monotone, bumped, vector.imp_right (Or.imp_right (weaken id new))⟩
  · intro new oldView newView
    exact ((evolves id).1.fresh new oldView newView).imp_right (weaken id new)

/-- After an update with new content the row holds that content. -/
theorem content_of_applyUpdateInner {id : MemoryId} {update : MemoryUpdate} {now : Instant}
    {content : String} {db next : Db} {result : AuthorizedUpdateOutcome}
    (newContent : update.content = some content)
    (ran : applyUpdateInner id update now db = .ok (result, next)) :
    ∀ columns, next.indexed id = some columns → columns.content = content := by
  intro columns indexed
  rcases applyUpdateInner_ok newContent ran with ⟨absent, _, rfl⟩ | ⟨_, _, kept⟩
  · have missing : db.memories.find? id = none := by simpa [Table.contains] using absent
    simp only [Db.indexed, find?_updateById, missing, Option.map_none] at indexed
    cases indexed
  · rw [Db.indexed_eq_of_indexSide kept] at indexed
    simp only [Db.indexed, Db.dropEmbedding_memories, find?_updateById, Option.map_map] at indexed
    obtain ⟨row, _, rfl⟩ := Option.map_eq_some_iff.mp indexed
    simp [MemoryRow.indexedColumns, MemoryUpdate.setClause, newContent]

variable [Host]

/-- What an optimistic update may leave as a vector: the replacement, next to
the replacement content. -/
def WritesReplacement (target : MemoryId) (activeProfile : Option EmbeddingProfile)
    (update : MemoryUpdate) (embedding : Option Embedding) (id : MemoryId)
    (view : EmbeddingView) : Prop :=
  ∃ vector, embedding = some vector ∧ WritesVector target activeProfile vector id view ∧
    update.content = some view.content

theorem withinGrowing_reviseUnmodified (dimensions : Nat)
    (activeProfile : Option EmbeddingProfile) (id : MemoryId) (update : MemoryUpdate)
    (patch : Option MetadataPatch) (contextIds : Option (List ContextId))
    {embedding : Option Embedding} (existing : Memory) (principal : String) (audit : AuditDraft)
    (contextAudit : Option ContextAuditDraft) (revisionAt : Instant)
    (replaces : embedding.isNone || update.content.isSome) :
    Within (Growing (WritesReplacement id activeProfile update embedding))
      (reviseUnmodified dimensions activeProfile id update patch contextIds embedding existing
        principal audit contextAudit revisionAt) := by
  intro db value next ran
  obtain ⟨outcome, updated, updateRan, rest⟩ := bind_eq_ok.mp ran
  obtain ⟨_, embedded, embedRan, rest⟩ := bind_eq_ok.mp rest
  have early : Growing (WritesReplacement id activeProfile update embedding) db updated :=
    withinGrowing_applyUpdateInner id update revisionAt updateRan
  have middle : Growing (WritesReplacement id activeProfile update embedding) updated embedded := by
    cases vectorEq : embedding with
    | none =>
        simp only [vectorEq, onSome] at embedRan
        cases pure_eq_ok.mp embedRan
        exact Std.Refl.refl _
    | some vector =>
        simp only [vectorEq, onSome] at embedRan
        obtain ⟨content, contentEq⟩ : ∃ content, update.content = some content := by
          simpa [vectorEq, Option.isSome_iff_exists] using replaces
        refine (growing_storeReplacementEmbedding embedRan
          (content_of_applyUpdateInner contentEq updateRan)).mono ?_
        rintro other view ⟨wrote, rfl⟩
        exact ⟨vector, rfl, wrote, contentEq⟩
  have late : Growing (WritesReplacement id activeProfile update embedding) embedded next := by
    refine withinGrowing_of_keepsIndex ?_ rest
    refine Within.bind (Within.onSome fun _ _ => keepsIndex_applyMetadataPatch _ _ _ _ _)
      fun _ => ?_
    refine Within.bind (Within.onSome fun _ _ => keepsIndex_incrementRecordRevision _ _)
      fun _ => ?_
    refine Within.bind (Within.onSome fun _ _ =>
      keepsIndex_replaceContextsOptimistically _ _ _ _ _) fun _ => ?_
    exact Within.bind (keepsIndex_insertAuditDraft _ _) fun _ => Within.pure
  exact IsTrans.trans _ _ _ early (IsTrans.trans _ _ _ middle late)

theorem withinGrowing_updateAuthorizedIfUnmodified (dimensions : Nat)
    (activeProfile : Option EmbeddingProfile) (id : MemoryId) (expectedRevision : Int)
    (update : MemoryUpdate) (patch : Option MetadataPatch) (contextIds : Option (List ContextId))
    (embedding : Option Embedding) (principal : String) (audit : AuditDraft)
    (contextAudit : Option ContextAuditDraft) (now : Instant) :
    Within (Growing (WritesReplacement id activeProfile update embedding))
      (updateAuthorizedIfUnmodified dimensions activeProfile id expectedRevision update patch
        contextIds embedding principal audit contextAudit now) := by
  refine ReadsOnly.bind_within Within.require fun _ _ _ checked => ?_
  have replaces := (require_eq_ok.mp checked).1
  refine Within.bind (Within.onSome fun _ _ => (readsOnly_validateEmbeddingVector _ _).within)
    fun _ => ?_
  refine Within.bind Within.require fun _ => ?_
  refine Within.bind Within.reads fun found => ?_
  split
  · exact Within.pure
  · split
    · refine Within.bind Within.require fun _ => ?_
      refine Within.bind (Within.onSome fun _ _ =>
        (readsOnly_validateCompatibilityCacheUpdate _ _ _).within) fun _ => ?_
      exact withinGrowing_reviseUnmodified _ _ _ _ _ _ _ _ _ _ _ replaces
    · exact Within.pure

/-! ## Store paths -/

/-- A vector passed with a stored memory, next to the content of that memory. -/
def WritesItem (items : List MemoryWithEmbedding) (id : MemoryId) (view : EmbeddingView) : Prop :=
  ∃ item ∈ items, item.memory.id = id ∧ item.embedding = view.vector ∧
    item.memory.content = view.content

section Stores

variable {items : List MemoryWithEmbedding} {item : MemoryWithEmbedding}

omit [Host] in
theorem withinGrowing_storedItem (dimensions : Nat) (itemMem : item ∈ items) :
    Within (Growing (WritesItem items)) (insertPrepared dimensions item) := by
  apply withinGrowing_insertPrepared
  intro embedding profile embeddingEq
  exact ⟨item, itemMem, rfl, embeddingEq, rfl⟩

omit [Host] in
theorem withinGrowing_insertPreparedWithSupersession (dimensions : Nat)
    (supersedes : Option MemoryId) (audit : Option AuditDraft) (itemMem : item ∈ items) :
    Within (Growing (WritesItem items))
      (insertPreparedWithSupersession dimensions item supersedes audit) := by
  refine Within.bind (Within.onSome fun _ _ => (readsOnly_validateSupersededExists _).within)
    fun _ => ?_
  refine Within.bind (withinGrowing_storedItem dimensions itemMem) fun _ => ?_
  refine Within.bind (Within.onSome fun _ _ => ?_) fun _ => Within.onSome fun _ _ => ?_
  · exact Within.bind (withinGrowing_of_keepsIndex (keepsIndex_markSuperseded _ _))
      fun _ => Within.pure
  · exact withinGrowing_insertAuditDraft _ _

omit [Host] in
theorem withinGrowing_storeItemWithMetadata (dimensions : Nat) (supersedes : Option MemoryId)
    (metadata : MemoryMetadata) (audit : Option AuditDraft) (now : Instant)
    (itemMem : item ∈ items) :
    Within (Growing (WritesItem items))
      (storeItemWithMetadata dimensions item supersedes metadata audit now) := by
  refine Within.bind (withinGrowing_insertPreparedWithSupersession _ _ _ itemMem) fun _ => ?_
  exact withinGrowing_of_keepsIndex (keepsIndex_upsertMetadata _ _)

theorem withinGrowing_storeGovernedItem (dimensions : Nat) (request : GovernedItem)
    (principal : String) (now : Instant) (itemMem : request.item ∈ items) :
    Within (Growing (WritesItem items)) (storeGovernedItem dimensions request principal now) := by
  refine Within.bind (withinGrowing_storeItemWithMetadata _ _ _ _ _ itemMem) fun _ => ?_
  exact withinGrowing_of_keepsIndex (keepsIndex_insertMemoryContexts _ _ _ _ _ _ _)

omit [Host] in
theorem withinGrowing_store (dimensions : Nat) (item : MemoryWithEmbedding)
    (audit : Option AuditDraft) :
    Within (Growing (WritesItem [item])) (store dimensions item audit) := by
  refine Within.bind (withinGrowing_storedItem dimensions (by simp)) fun _ => ?_
  refine Within.bind (Within.onSome fun _ _ => ?_) fun _ => Within.pure
  exact withinGrowing_insertAuditDraft _ _

omit [Host] in
theorem withinGrowing_storeWithSupersession (dimensions : Nat) (item : MemoryWithEmbedding)
    (supersedes : MemoryId) (audit : Option AuditDraft) :
    Within (Growing (WritesItem [item]))
      (storeWithSupersession dimensions item supersedes audit) :=
  Within.bind (withinGrowing_insertPreparedWithSupersession _ _ _ (by simp)) fun _ => Within.pure

omit [Host] in
theorem withinGrowing_storeWithMetadata (dimensions : Nat) (item : MemoryWithEmbedding)
    (supersedes : Option MemoryId) (metadata : MemoryMetadata) (audit : Option AuditDraft)
    (now : Instant) :
    Within (Growing (WritesItem [item]))
      (storeWithMetadata dimensions item supersedes metadata audit now) := by
  refine Within.bind Within.require fun _ => ?_
  exact Within.bind (withinGrowing_storeItemWithMetadata _ _ _ _ _ (by simp)) fun _ => Within.pure

theorem withinGrowing_storeWithMetadataContexts (dimensions : Nat) (request : GovernedItem)
    (now : Instant) :
    Within (Growing (WritesItem [request.item]))
      (storeWithMetadataContexts dimensions request now) := by
  refine Within.bind (readsOnly_validateGovernedItem request).within fun _ => ?_
  exact Within.bind (withinGrowing_storeGovernedItem _ _ _ _ (by simp)) fun _ => Within.pure

omit [Host] in
theorem withinGrowing_storeBatch (dimensions : Nat) (items : List MemoryWithEmbedding)
    (audits : Option (List AuditDraft)) :
    Within (Growing (WritesItem items)) (storeBatch dimensions items audits) := by
  refine Within.bind (Within.onSome fun _ _ => Within.require) fun _ => ?_
  refine Within.bind (Within.forM fun entry entryMem => ?_) fun _ => Within.pure
  refine Within.bind
    (withinGrowing_storedItem dimensions (List.fst_mem_of_mem_zipIdx entryMem)) fun _ => ?_
  exact Within.onSome fun _ _ => withinGrowing_insertAuditDraft _ _

omit [Host] in
theorem withinGrowing_storeBatchWithSupersession (dimensions : Nat)
    (items : List MemoryWithEmbedding) (supersedes : List (Option MemoryId))
    (audits : Option (List AuditDraft)) :
    Within (Growing (WritesItem items))
      (storeBatchWithSupersession dimensions items supersedes audits) := by
  refine Within.bind Within.require fun _ => ?_
  refine Within.bind (Within.onSome fun _ _ => Within.require) fun _ => ?_
  refine Within.bind (Within.forM fun entry entryMem => ?_) fun _ => Within.pure
  exact withinGrowing_insertPreparedWithSupersession _ _ _ (List.fst_mem_of_mem_zipIdx entryMem)

omit [Host] in
theorem withinGrowing_storeBatchWithMetadata (dimensions : Nat)
    (items : List MemoryWithEmbedding) (supersedes : List (Option MemoryId))
    (metadata : List MemoryMetadata) (audits : Option (List AuditDraft)) (now : Instant) :
    Within (Growing (WritesItem items))
      (storeBatchWithMetadata dimensions items supersedes metadata audits now) := by
  refine Within.bind Within.require fun _ => ?_
  refine Within.bind Within.require fun _ => ?_
  refine Within.bind (Within.onSome fun _ _ => Within.require) fun _ => ?_
  refine Within.bind (Within.forM fun _ _ => Within.require) fun _ => ?_
  refine Within.bind (Within.forM fun entry entryMem => ?_) fun _ => Within.pure
  have pairMem := List.fst_mem_of_mem_zipIdx entryMem
  exact withinGrowing_storeItemWithMetadata _ _ _ _ _ (List.of_mem_zip pairMem).1

theorem withinGrowing_storeBatchWithMetadataContexts (dimensions : Nat)
    (items : List MemoryWithEmbedding) (supersedes : List (Option MemoryId))
    (metadata : List MemoryMetadata) (contextIds : List (List ContextId))
    (audits : List AuditDraft) (contextAudits : List ContextAuditDraft) (now : Instant) :
    Within (Growing (WritesItem items))
      (storeBatchWithMetadataContexts dimensions items supersedes metadata contextIds audits
        contextAudits now) := by
  refine Within.bind Within.require fun _ => ?_
  refine Within.bind (Within.mapM fun _ _ => (readsOnly_validateGovernedItem _).within)
    fun _ => ?_
  refine Within.bind (Within.forM fun entry entryMem => ?_) fun _ => Within.pure
  have requestMem := (List.of_mem_zip entryMem).1
  exact withinGrowing_storeGovernedItem _ _ _ _ (item_mem_of_mem_governedItems requestMem)

end Stores

/-! ## Delete paths -/

omit [Host] in
theorem withinShrinking_insertAuditDraft (id : MemoryId) (audit : AuditDraft) :
    Within Shrinking (insertAuditDraft id audit) :=
  withinShrinking_of_keepsIndex (keepsIndex_insertAuditDraft id audit)

end LocalHold
