import LocalHold.Store.Revisions

/-!
# Record revisions of the store's statements

What each statement does to the views of memories.  A statement on one memory
touches that memory only; deleting a memory also advances the memories whose
supersession mark it clears.
-/

namespace LocalHold

open Relational Transition Transition.Txn

/-! ## Row updates -/

/-- A row rewrite relates views as it relates the rows. -/
theorem Related.of_map {allowed : MemoryView → MemoryView → Prop} {id : MemoryId}
    {before after : Db} (change : MemoryRow → MemoryRow)
    (rows : after.memories.find? id = (before.memories.find? id).map change)
    (tombstones : after.tombstones.contains id = before.tombstones.contains id)
    (step : ∀ row, before.memories.find? id = some row →
      allowed ⟨row.recordRevision, row.revisedColumns, before.attachments id⟩
        ⟨(change row).recordRevision, (change row).revisedColumns, after.attachments id⟩) :
    Related allowed id before after where
  kept old new oldView newView := by
    cases found : before.memories.find? id with
    | none => simp [Db.view, found] at oldView
    | some row =>
        simp only [Db.view, found, Option.map_some, Option.some.injEq] at oldView
        simp only [Db.view, rows, found, Option.map_some, Option.some.injEq] at newView
        rw [← oldView, ← newView]
        exact step row found
  gone present absent := by
    rw [Db.view_eq_none_iff, rows, Option.map_eq_none_iff] at absent
    exact absurd (Db.view_eq_none_iff.mpr absent) present
  fresh absent present := by
    rw [Db.view_eq_none_iff] at absent
    exact absurd (Db.view_eq_none_iff.mpr (by rw [rows, absent]; rfl)) present
  tombstone tombstoned := by rw [tombstones]; exact tombstoned

/-- A rewrite of selected rows, seen from every memory. -/
theorem Related.of_updateWhere {allowed : MemoryView → MemoryView → Prop} {id : MemoryId} {db : Db}
    {hit : MemoryRow → Bool} {change : MemoryRow → MemoryRow}
    {keepsKey : ∀ row, (change row).id = row.id}
    (step : ∀ row attachments, row.id = id →
      allowed ⟨row.recordRevision, row.revisedColumns, attachments⟩
        ⟨(if hit row then change row else row).recordRevision,
          (if hit row then change row else row).revisedColumns, attachments⟩) :
    Related allowed id db { db with memories := db.memories.updateWhere hit change keepsKey } := by
  apply Related.of_map fun row => if hit row then change row else row
  · simp
  · rfl
  · intro row found
    exact step row _ (Table.find?_key found)

/-- A rewrite that keeps revisions and covered columns is sound. -/
theorem Sound.of_updateWhere {db : Db} {hit : MemoryRow → Bool} {change : MemoryRow → MemoryRow}
    {keepsKey : ∀ row, (change row).id = row.id}
    (sameRevision : ∀ row, (change row).recordRevision = row.recordRevision)
    (sameColumns : ∀ row, (change row).revisedColumns = row.revisedColumns) :
    Sound db { db with memories := db.memories.updateWhere hit change keepsKey } := by
  intro id
  apply Related.of_updateWhere
  intro row attachments _
  split
  · rw [sameRevision, sameColumns]
    exact Tracked.refl _
  · exact Tracked.refl _

theorem withinTouches_updateMemoryWhere {allowed : MemoryView → MemoryView → Prop} {id : MemoryId}
    {guard : MemoryRow → Bool} {change : MemoryRow → MemoryRow}
    {keepsKey : ∀ row, (change row).id = row.id}
    (step : ∀ row attachments,
      allowed ⟨row.recordRevision, row.revisedColumns, attachments⟩
        ⟨(if guard row then change row else row).recordRevision,
          (if guard row then change row else row).revisedColumns, attachments⟩) :
    Within (Touches allowed id) (updateMemoryWhere id guard change keepsKey) := by
  intro state value next ran
  obtain ⟨_, _, readRan, writeRan⟩ := bind_eq_ok.mp ran
  cases reads_eq_ok.mp readRan
  obtain ⟨_, _, written, returned⟩ := bind_eq_ok.mp writeRan
  cases writes_eq_ok.mp written
  cases pure_eq_ok.mp returned
  constructor
  · apply Related.of_updateWhere
    intro row attachments rowId
    simpa [rowId] using step row attachments
  · intro other different
    apply Related.of_updateWhere
    intro row attachments rowId
    have unequal : row.id ≠ id := fun equal => different (rowId.symm.trans equal)
    simp only [unequal, decide_false, Bool.false_and, Bool.false_eq_true, if_false]
    exact Tracked.refl _

/-- An update that advances the revision of its row. -/
theorem withinAdvanced_updateMemory {id : MemoryId} {change : MemoryRow → MemoryRow}
    {keepsKey : ∀ row, (change row).id = row.id}
    (advances : ∀ row, row.recordRevision < (change row).recordRevision) :
    Within (Touches Advanced id) (updateMemory id change keepsKey) := by
  apply withinTouches_updateMemoryWhere
  intro row attachments
  exact advances row

/-- An update that keeps the revision of its row. -/
theorem withinTouches_updateMemory {id : MemoryId} {change : MemoryRow → MemoryRow}
    {keepsKey : ∀ row, (change row).id = row.id}
    (keeps : ∀ row, (change row).recordRevision = row.recordRevision) :
    Within (Touches Ordered id) (updateMemory id change keepsKey) := by
  apply withinTouches_updateMemoryWhere
  intro row attachments
  exact le_of_eq (keeps row).symm

/-- A guarded update that keeps revisions and covered columns. -/
theorem withinSound_updateMemoryWhere {id : MemoryId} {guard : MemoryRow → Bool}
    {change : MemoryRow → MemoryRow} {keepsKey : ∀ row, (change row).id = row.id}
    (sameRevision : ∀ row, (change row).recordRevision = row.recordRevision)
    (sameColumns : ∀ row, (change row).revisedColumns = row.revisedColumns) :
    Within Sound (updateMemoryWhere id guard change keepsKey) := by
  apply withinSound_of_tracked
  apply withinTouches_updateMemoryWhere
  intro row attachments
  split
  · rw [sameRevision, sameColumns]
    exact Tracked.refl _
  · exact Tracked.refl _

/-- A guarded update that advances the row it hits. -/
theorem withinSound_updateMemoryWhere_advancing {id : MemoryId} {guard : MemoryRow → Bool}
    {change : MemoryRow → MemoryRow} {keepsKey : ∀ row, (change row).id = row.id}
    (advances : ∀ row, row.recordRevision < (change row).recordRevision) :
    Within Sound (updateMemoryWhere id guard change keepsKey) := by
  apply withinSound_of_tracked
  apply withinTouches_updateMemoryWhere
  intro row attachments
  split
  · exact Advanced.tracked (advances row)
  · exact Tracked.refl _

/-! ## Attachments -/

/-- Writing the attachments of one memory touches that memory only. -/
theorem Touches.of_attachments {id : MemoryId} {before after : Db}
    (memories : after.memories = before.memories)
    (tombstones : after.tombstones = before.tombstones)
    (others : ∀ other, other ≠ id → after.attachments other = before.attachments other) :
    Touches Ordered id before after := by
  constructor
  · apply Related.of_map fun row => row
    · rw [memories]
      simp
    · rw [tombstones]
    · intro row _
      exact le_refl _
  · intro other different
    apply Related.of_view_eq Tracked.refl
    · simp only [Db.view, memories, others other different]
    · rw [tombstones]

theorem withinTouches_insertEntities (id : MemoryId) (entities : List Entity) :
    Within (Touches Ordered id) (insertEntities id entities) := by
  apply Within.forM
  intro entity _
  refine Within.bind Within.reads fun _ => ?_
  refine Within.bind Within.require fun _ => Within.writes fun db => ?_
  refine Touches.of_attachments rfl rfl fun other different => ?_
  simp only [Db.attachments, Attachments.mk.injEq, and_true]
  apply Table.select_insertOrIgnore_of_not
  simpa using fun equal => different equal.symm

theorem withinTouches_replaceEntities (id : MemoryId) (entities : List Entity) :
    Within (Touches Ordered id) (replaceEntities id entities) := by
  refine Within.bind (Within.writes fun db => ?_) fun _ => withinTouches_insertEntities id entities
  refine Touches.of_attachments rfl rfl fun other different => ?_
  simp only [Db.attachments, Attachments.mk.injEq, and_true]
  apply Table.select_deleteWhere_of_disjoint
  intro row kept
  rw [decide_eq_true_eq] at kept
  simpa [kept] using different

theorem withinTouches_upsertMetadata (metadata : MemoryMetadata) (now : Instant) :
    Within (Touches Ordered metadata.memoryId) (upsertMetadata metadata now) := by
  refine Within.bind Within.reads fun _ => ?_
  refine Within.bind Within.require fun _ => Within.writes fun db => ?_
  refine Touches.of_attachments rfl rfl fun other different => ?_
  simp only [Db.attachments, Attachments.mk.injEq, true_and, and_true]
  rw [Table.find?_upsert, if_neg different]

theorem withinTouches_setMetadataScope (id : MemoryId) (scope : String) (now : Instant) :
    Within (Touches Ordered id) (setMetadataScope id scope now) := by
  refine Within.writes fun db => ?_
  refine Touches.of_attachments rfl rfl fun other different => ?_
  simp only [Db.attachments, Attachments.mk.injEq, true_and, and_true]
  rw [Table.find?_update, if_neg different]

theorem withinTouches_deleteMembershipRows (id : MemoryId) :
    Within (Touches Ordered id) (deleteMembershipRows id) := by
  refine Within.writes fun db => ?_
  refine Touches.of_attachments rfl rfl fun other different => ?_
  simp only [Db.attachments, Attachments.mk.injEq, true_and]
  apply Table.select_deleteWhere_of_disjoint
  intro row kept
  rw [decide_eq_true_eq] at kept
  simpa [kept] using different

theorem withinTouches_insertMembershipRows (id : MemoryId) (contextIds : List ContextId)
    (now : Instant) : Within (Touches Ordered id) (insertMembershipRows id contextIds now) := by
  apply Within.forM
  intro entry _
  refine Within.bind Within.reads fun _ => ?_
  refine Within.bind Within.require fun _ => ?_
  refine Within.bind Within.reads fun _ => ?_
  refine Within.bind Within.require fun _ => ?_
  refine Within.reads_expect_writes fun db memberships inserted => ?_
  refine Touches.of_attachments rfl rfl fun other different => ?_
  have outside : decide (id = other) = false := by simpa using fun equal => different equal.symm
  simp only [Db.attachments, Attachments.mk.injEq, true_and]
  rw [Table.select_insert? inserted]
  simp [outside]

theorem withinTouches_updateProvenance (id : MemoryId) (change : Provenance → Provenance) :
    Within (Touches Ordered id)
      (updateMemory id fun row => { row with provenance := change row.provenance }) :=
  withinTouches_updateMemory fun _ => rfl

variable [Host]

theorem withinTouches_insertMemoryContexts (id : MemoryId) (contextIds : List ContextId)
    (principal scope : String) (audit : ContextAuditDraft) (now : Instant)
    (preserved : List ContextId) :
    Within (Touches Ordered id)
      (insertMemoryContexts id contextIds principal scope audit now preserved) := by
  refine Within.bind (readsOnly_validateAuditActor audit principal).within fun _ => ?_
  refine Within.bind Within.require fun _ => ?_
  refine Within.bind (readsOnly_requireUsableContexts _ _ _).within fun _ => ?_
  refine Within.bind (readsOnly_primaryContextKey contextIds).within fun _ => ?_
  refine Within.bind Within.require fun _ => ?_
  refine Within.bind (withinTouches_insertMembershipRows id contextIds now) fun _ => ?_
  exact withinTouches_of_sound
    (withinSound_of_leavesMemories (leavesMemories_insertContextAudit _ _ _ _))

theorem withinTouches_replaceMemoryContextsTx (id : MemoryId) (contextIds : List ContextId)
    (principal scope : String) (audit : ContextAuditDraft) (now : Instant) :
    Within (Touches Ordered id)
      (replaceMemoryContextsTx id contextIds principal scope audit now) := by
  refine Within.bind Within.reads fun _ => ?_
  refine Within.bind (withinTouches_deleteMembershipRows id) fun _ => ?_
  refine Within.bind (withinTouches_insertMemoryContexts _ _ _ _ _ _ _) fun _ => ?_
  refine Within.bind (withinTouches_setMetadataScope id scope now) fun _ => ?_
  refine Within.bind ?_ fun _ => Within.pure
  exact withinTouches_updateProvenance id fun provenance => provenance.withConversation scope

/-! ## Vectors -/

omit [Host] in
theorem withinSound_deleteEmbeddingMapRow (id : MemoryId) :
    Within Sound (deleteEmbeddingMapRow id) :=
  withinSound_writes fun db => db.memorySide_dropEmbedding id

omit [Host] in
theorem withinSound_vectorUpsert (dimensions : Nat) (id : MemoryId) (embedding : Embedding) :
    Within Sound (vectorUpsert dimensions id embedding) :=
  (keepsMemorySide_vectorUpsert dimensions id embedding).mono fun _ _ same =>
    Sound.of_memorySide same

/-! ## Deletion -/

omit [Host] in
theorem Db.attachments_dropMemory {db : Db} {id other : MemoryId} (different : other ≠ id) :
    (db.dropMemory id).attachments other = db.attachments other := by
  have disjoint : ∀ memoryId : MemoryId, decide (memoryId = other) = true →
      decide (memoryId = id) = false := by
    intro memoryId kept
    rw [decide_eq_true_eq] at kept
    simpa [kept] using different
  simp only [Db.attachments, Db.dropMemory, Attachments.mk.injEq]
  refine ⟨?_, ?_, ?_⟩
  · exact Table.select_deleteWhere_of_disjoint fun row => disjoint row.memoryId
  · rw [Table.find?_delete, if_neg different]
  · exact Table.select_deleteWhere_of_disjoint fun row => disjoint row.memoryId

omit [Host] in
theorem Db.find?_dropMemory {db : Db} {id other : MemoryId} :
    (db.dropMemory id).memories.find? other =
      if other = id then none else
        (db.memories.find? other).map fun row =>
          if row.supersededBy = some id then
            { row with supersededBy := none, recordRevision := row.recordRevision + 1 }
          else row := by
  simp only [Db.dropMemory, Table.find?_updateWhere, Table.find?_delete, decide_eq_true_eq]
  split <;> rfl

omit [Host] in
/-- Deleting a memory that has a tombstone is sound: the memories it superseded
advance when their mark is cleared. -/
theorem Db.sound_dropMemory {db : Db} {id : MemoryId}
    (tombstoned : db.tombstones.contains id = true) : Sound db (db.dropMemory id) := by
  have sameTombstones : (db.dropMemory id).tombstones = db.tombstones := by
    simp only [Db.dropMemory, Db.dropEmbedding]
    split <;> rfl
  intro other
  by_cases equal : other = id
  · subst equal
    have absent : (db.dropMemory other).view other = none := by
      rw [Db.view_eq_none_iff, Db.find?_dropMemory, if_pos rfl]
    exact
      { kept := by intro old new _ newView; rw [absent] at newView; cases newView
        gone := by intro _ _; rw [sameTombstones]; exact tombstoned
        fresh := by intro _ present; exact absurd absent present
        tombstone := by intro _; rw [sameTombstones]; exact tombstoned }
  · apply Related.of_map fun row =>
      if row.supersededBy = some id then
        { row with supersededBy := none, recordRevision := row.recordRevision + 1 }
      else row
    · rw [Db.find?_dropMemory, if_neg equal]
    · rw [sameTombstones]
    · intro row _
      rw [Db.attachments_dropMemory equal]
      split
      · exact Advanced.tracked (Int.lt_succ row.recordRevision)
      · exact Tracked.refl _

omit [Host] in
theorem withinSound_insertTombstone (memory : Memory) (deletedAt : Instant)
    (deletedBy : Option String) : Within Sound (insertTombstone memory deletedAt deletedBy) := by
  refine Within.writes fun db other => ?_
  have marked : ∀ row : MemoryTombstone, (db.tombstones.upsert row).contains other =
      (decide (other = row.memoryId) || db.tombstones.contains other) := by
    intro row
    simp only [Table.contains, Table.find?_upsert]
    by_cases equal : other = row.memoryId <;> simp [equal]
  exact
    { kept := by
        intro old new oldView newView
        have sameView : some old = some new := oldView.symm.trans newView
        cases sameView
        exact Tracked.refl old
      gone := fun present absent => absurd absent present
      fresh := fun absent present => absurd absent present
      tombstone := by
        intro tombstoned
        rw [marked, tombstoned, Bool.or_true] }

omit [Host] in
theorem withinSound_entombMemory (memory : Memory) (deletedAt : Instant)
    (deletedBy : Option String) : Within Sound (entombMemory memory deletedAt deletedBy) := by
  apply Within.bind_of (withinSound_insertTombstone memory deletedAt deletedBy)
  intro state _ marked tombstoneRan result final deleteRan
  cases writes_eq_ok.mp tombstoneRan
  obtain ⟨_, _, existsRan, deleteRan⟩ := bind_eq_ok.mp deleteRan
  cases reads_eq_ok.mp existsRan
  split at deleteRan
  · obtain ⟨_, _, written, returned⟩ := bind_eq_ok.mp deleteRan
    cases writes_eq_ok.mp written
    cases pure_eq_ok.mp returned
    apply Db.sound_dropMemory
    simp [Table.contains, Table.find?_upsert]
  · cases pure_eq_ok.mp deleteRan
    exact Std.Refl.refl _

end LocalHold
