import LocalHold.Store.Index

/-!
# Statements and the vector index

Most statements leave the index alone.  The others concern one memory: they
leave the index data of every other memory unchanged and keep the map table
consistent, while the flag of that memory may lag behind until the transaction
has set it.
-/

namespace LocalHold

open Relational Transition Transition.Txn

/-! ## One memory at a time -/

/-- The index data of every memory but one is unchanged. -/
structure OnlyAt (id : MemoryId) (before after : Db) : Prop where
  mapOk : MapOk before → MapOk after
  profile : after.embeddingProfile = before.embeddingProfile
  indexed : ∀ other, other ≠ id → after.indexed other = before.indexed other
  vector : MapOk before → ∀ other, other ≠ id → after.vectorOf other = before.vectorOf other
  mapped : MapOk before → ∀ other, other ≠ id →
    after.embeddingMap.contains other = before.embeddingMap.contains other
  present : before.indexed id ≠ none → after.indexed id ≠ none

instance (id : MemoryId) : IsTrans Db (OnlyAt id) :=
  ⟨fun _ _ _ early late =>
    { mapOk := fun ok => late.mapOk (early.mapOk ok)
      profile := late.profile.trans early.profile
      indexed := fun other different =>
        (late.indexed other different).trans (early.indexed other different)
      vector := fun ok other different =>
        (late.vector (early.mapOk ok) other different).trans (early.vector ok other different)
      mapped := fun ok other different =>
        (late.mapped (early.mapOk ok) other different).trans (early.mapped ok other different)
      present := fun present => late.present (early.present present) }⟩

theorem OnlyAt.embeddingView_eq {id other : MemoryId} {before after : Db}
    (onlyAt : OnlyAt id before after) (mapOk : MapOk before) (different : other ≠ id) :
    after.embeddingView other = before.embeddingView other := by
  simp only [Db.embeddingView, onlyAt.indexed other different, onlyAt.vector mapOk other different,
    onlyAt.profile]

/-- A transaction about one memory is sustained once that memory is settled. -/
theorem OnlyAt.growing {written : MemoryId → EmbeddingView → Prop} {id : MemoryId}
    {before after : Db} (onlyAt : OnlyAt id before after)
    (settled : IndexOk before → FlagOk after id ∧ Evolves written id before after) :
    Growing written before after := by
  intro indexOk
  obtain ⟨flagOk, evolves⟩ := settled indexOk
  have mapOk := indexOk.toMapOk
  refine ⟨⟨onlyAt.mapOk mapOk, fun other => ?_⟩, fun other => ?_⟩
  · by_cases equal : other = id
    · subst equal
      exact flagOk
    · exact (indexOk.flagged other).of_indexed (onlyAt.indexed other equal)
        (onlyAt.mapped mapOk other equal)
  · by_cases equal : other = id
    · subst equal
      refine ⟨evolves, fun present => ?_⟩
      rw [Ne, Db.embeddingView_eq_none_iff] at present ⊢
      exact onlyAt.present present
    · rw [onlyAt.embeddingView_eq mapOk equal]
      exact ⟨Evolves.of_eq (onlyAt.embeddingView_eq mapOk equal), fun present => present⟩

/-- A state that keeps the map, the vectors and the presence of memories. -/
theorem MapOk.of_contains {before after : Db} (map : after.embeddingMap = before.embeddingMap)
    (vectors : after.embeddings = before.embeddings)
    (contains : ∀ id, before.memories.contains id = true → after.memories.contains id = true)
    (mapOk : MapOk before) : MapOk after where
  mapped mapping mappingMem := by
    obtain ⟨memory, vector⟩ := mapOk.mapped mapping (map ▸ mappingMem)
    rw [vectors]
    exact ⟨contains _ memory, vector⟩
  named vector vectorMem := by
    rw [map]
    exact mapOk.named vector (vectors ▸ vectorMem)
  unshared first firstMem second secondMem :=
    mapOk.unshared first (map ▸ firstMem) second (map ▸ secondMem)

theorem onlyAt_updateWhere {db : Db} {id : MemoryId} {guard : MemoryRow → Bool}
    {change : MemoryRow → MemoryRow} {keepsKey : ∀ row, (change row).id = row.id} :
    OnlyAt id db { db with
      memories := db.memories.updateWhere (fun row => decide (row.id = id) && guard row) change
        keepsKey } where
  mapOk := MapOk.of_contains rfl rfl fun other present => by
    rw [Table.contains_updateWhere]
    exact present
  profile := rfl
  indexed other different := by
    simp only [Db.indexed, Table.find?_updateWhere, Option.map_map]
    cases found : db.memories.find? other with
    | none => rfl
    | some row =>
        have rowKey := Table.find?_key found
        simp [rowKey, different]
  vector _ _ _ := rfl
  mapped _ _ _ := rfl
  present present := by
    simpa [Db.indexed] using present

theorem withinOnlyAt_insertMemoryRow (row : MemoryRow) :
    Within (OnlyAt row.id) (insertMemoryRow row) := by
  refine Within.reads_expect_writes fun db memories inserted => ?_
  exact
    { mapOk := MapOk.of_contains rfl rfl fun other present => by
        simp only [Table.contains_insert? inserted, present, Bool.or_true]
      profile := rfl
      indexed := fun other different => by
        simp only [Db.indexed, Table.find?_insert? inserted, if_neg different]
      vector := fun _ _ _ => rfl
      mapped := fun _ _ _ => rfl
      present := fun _ => by simp [Db.indexed, Table.find?_insert? inserted] }

/-! ## Removing a vector -/

@[simp]
theorem Db.dropEmbedding_memories (db : Db) (id : MemoryId) :
    (db.dropEmbedding id).memories = db.memories := by
  unfold Db.dropEmbedding
  split <;> rfl

@[simp]
theorem Db.dropEmbedding_embeddingProfile (db : Db) (id : MemoryId) :
    (db.dropEmbedding id).embeddingProfile = db.embeddingProfile := by
  unfold Db.dropEmbedding
  split <;> rfl

@[simp]
theorem Db.dropEmbedding_embeddingMap (db : Db) (id : MemoryId) :
    (db.dropEmbedding id).embeddingMap = db.embeddingMap.delete id := by
  unfold Db.dropEmbedding
  split
  case h_1 absent => rw [Table.delete_eq_self absent]
  case h_2 => rfl

/-- The vectors that stay are those the memory did not name. -/
theorem Db.find?_dropEmbedding (db : Db) (id : MemoryId) (rowid : Nat) :
    (db.dropEmbedding id).embeddings.find? rowid =
      if (db.embeddingMap.find? id).any (·.vecRowid == rowid) then none
      else db.embeddings.find? rowid := by
  unfold Db.dropEmbedding
  split
  case h_1 absent => simp [absent]
  case h_2 mapping found =>
    simp only [found, Option.any_some, Table.find?_delete, beq_iff_eq]
    by_cases equal : rowid = mapping.vecRowid
    · simp [equal]
    · rw [if_neg equal, if_neg (Ne.symm equal)]

theorem MapOk.dropEmbedding {db : Db} (mapOk : MapOk db) (id : MemoryId) :
    MapOk (db.dropEmbedding id) where
  mapped mapping mappingMem := by
    rw [Db.dropEmbedding_embeddingMap, Table.mem_iff_find?, Table.find?_delete] at mappingMem
    split at mappingMem
    case isTrue => cases mappingMem
    case isFalse different =>
      have mappingOld : mapping ∈ db.embeddingMap := Table.mem_of_find? mappingMem
      obtain ⟨memory, vector⟩ := mapOk.mapped mapping mappingOld
      refine ⟨by rw [Db.dropEmbedding_memories]; exact memory, ?_⟩
      rw [Table.contains, Db.find?_dropEmbedding, if_neg]
      · exact vector
      · simp only [Option.any_eq_true, beq_iff_eq, not_exists, not_and]
        intro other otherFound sameRowid
        have equal := mapOk.unshared other (Table.mem_of_find? otherFound) mapping mappingOld
          sameRowid
        subst equal
        exact different (Table.find?_key otherFound)
  named vector vectorMem := by
    rw [Table.mem_iff_find?, Db.find?_dropEmbedding] at vectorMem
    split at vectorMem
    case isTrue => cases vectorMem
    case isFalse unnamed =>
      obtain ⟨mapping, mappingMem, sameRowid⟩ := mapOk.named vector (Table.mem_of_find? vectorMem)
      refine ⟨mapping, ?_, sameRowid⟩
      rw [Db.dropEmbedding_embeddingMap, Table.mem_iff_find?, Table.find?_delete, if_neg]
      · exact Table.mem_iff_find?.mp mappingMem
      · intro equal
        apply unnamed
        have found : db.embeddingMap.find? id = some mapping :=
          equal ▸ Table.mem_iff_find?.mp mappingMem
        simp [found, sameRowid]
  unshared first firstMem second secondMem := by
    rw [Db.dropEmbedding_embeddingMap, Table.delete, Table.mem_deleteWhere_iff] at firstMem secondMem
    exact mapOk.unshared first firstMem.1 second secondMem.1

theorem Db.vectorOf_dropEmbedding {db : Db} (mapOk : MapOk db) {id other : MemoryId}
    (different : other ≠ id) : (db.dropEmbedding id).vectorOf other = db.vectorOf other := by
  simp only [Db.vectorOf, Db.dropEmbedding_embeddingMap, Table.find?_delete, if_neg different]
  cases found : db.embeddingMap.find? other with
  | none => rfl
  | some mapping =>
      simp only [Option.bind_some]
      rw [Db.find?_dropEmbedding, if_neg]
      simp only [Option.any_eq_true, beq_iff_eq, not_exists, not_and]
      intro own ownFound sameRowid
      have equal := mapOk.unshared own (Table.mem_of_find? ownFound) mapping
        (Table.mem_of_find? found) sameRowid
      subst equal
      exact different ((Table.find?_key found).symm.trans (Table.find?_key ownFound))

theorem onlyAt_dropEmbedding (db : Db) (id : MemoryId) : OnlyAt id db (db.dropEmbedding id) where
  mapOk mapOk := mapOk.dropEmbedding id
  profile := db.dropEmbedding_embeddingProfile id
  indexed other _ := by simp only [Db.indexed, Db.dropEmbedding_memories]
  vector mapOk other different := Db.vectorOf_dropEmbedding mapOk different
  mapped _ other different := by simp [Table.contains_delete, different]
  present present := by simpa only [Db.indexed, Db.dropEmbedding_memories] using present

/-! ## Writing a vector -/

/-- A vector and its map row join an index in which the memory had none. -/
structure Attaches (id : MemoryId) (rowid : Nat) (embedding : Embedding) (before after : Db) :
    Prop where
  memories : after.memories = before.memories
  profile : after.embeddingProfile = before.embeddingProfile
  exists_memory : before.memories.contains id = true
  unmapped : before.embeddingMap.find? id = none
  unused : before.embeddings.find? rowid = none
  map : ∀ other, after.embeddingMap.find? other =
    if other = id then some ⟨id, rowid⟩ else before.embeddingMap.find? other
  vectors : ∀ other, after.embeddings.find? other =
    if other = rowid then some ⟨rowid, embedding⟩ else before.embeddings.find? other

namespace Attaches

variable {id : MemoryId} {rowid : Nat} {embedding : Embedding} {before after : Db}

theorem rowid_ne (mapOk : MapOk before) (attaches : Attaches id rowid embedding before after)
    {mapping : EmbeddingMapRow} (mappingMem : mapping ∈ before.embeddingMap) :
    mapping.vecRowid ≠ rowid := by
  intro equal
  have vector := (mapOk.mapped mapping mappingMem).2
  rw [Table.contains, equal, attaches.unused] at vector
  cases vector

theorem mem_map_iff (attaches : Attaches id rowid embedding before after)
    {mapping : EmbeddingMapRow} :
    mapping ∈ after.embeddingMap ↔ mapping = ⟨id, rowid⟩ ∨ mapping ∈ before.embeddingMap := by
  have old : mapping ∈ before.embeddingMap ↔
      before.embeddingMap.find? mapping.memoryId = some mapping := Table.mem_iff_find?
  rw [old, Table.mem_iff_find?, attaches.map]
  by_cases equal : mapping.memoryId = id
  · rw [if_pos equal, equal, attaches.unmapped]
    simp [eq_comm]
  · rw [if_neg equal]
    constructor
    · exact Or.inr
    · rintro (rfl | found)
      · exact absurd rfl equal
      · exact found

theorem mapOk (attaches : Attaches id rowid embedding before after) (mapOk : MapOk before) :
    MapOk after where
  mapped mapping mappingMem := by
    rcases attaches.mem_map_iff.mp mappingMem with rfl | old
    · refine ⟨by rw [attaches.memories]; exact attaches.exists_memory, ?_⟩
      rw [Table.contains, attaches.vectors, if_pos rfl]
      rfl
    · obtain ⟨memory, vector⟩ := mapOk.mapped mapping old
      refine ⟨by rw [attaches.memories]; exact memory, ?_⟩
      rw [Table.contains, attaches.vectors, if_neg (attaches.rowid_ne mapOk old)]
      exact vector
  named vector vectorMem := by
    rw [Table.mem_iff_find?, attaches.vectors] at vectorMem
    split at vectorMem
    case isTrue equal => exact ⟨⟨id, rowid⟩, attaches.mem_map_iff.mpr (Or.inl rfl), equal.symm⟩
    case isFalse =>
      obtain ⟨mapping, mappingMem, sameRowid⟩ := mapOk.named vector (Table.mem_of_find? vectorMem)
      exact ⟨mapping, attaches.mem_map_iff.mpr (Or.inr mappingMem), sameRowid⟩
  unshared first firstMem second secondMem sameRowid := by
    rcases attaches.mem_map_iff.mp firstMem with rfl | firstOld
    · rcases attaches.mem_map_iff.mp secondMem with rfl | secondOld
      · rfl
      · exact absurd sameRowid.symm (attaches.rowid_ne mapOk secondOld)
    · rcases attaches.mem_map_iff.mp secondMem with rfl | secondOld
      · exact absurd sameRowid (attaches.rowid_ne mapOk firstOld)
      · exact mapOk.unshared first firstOld second secondOld sameRowid

theorem vectorOf_self (attaches : Attaches id rowid embedding before after) :
    after.vectorOf id = some embedding := by
  simp [Db.vectorOf, attaches.map, attaches.vectors]

theorem onlyAt (attaches : Attaches id rowid embedding before after) :
    OnlyAt id before after where
  mapOk := attaches.mapOk
  profile := attaches.profile
  indexed other _ := by simp only [Db.indexed, attaches.memories]
  vector mapOk other different := by
    simp only [Db.vectorOf, attaches.map, if_neg different]
    cases found : before.embeddingMap.find? other with
    | none => rfl
    | some mapping =>
        simp only [Option.bind_some, attaches.vectors,
          if_neg (attaches.rowid_ne mapOk (Table.mem_of_find? found))]
  mapped _ other different := by simp only [Table.contains, attaches.map, if_neg different]
  present present := by simpa only [Db.indexed, attaches.memories] using present

end Attaches

theorem insertVector_ok {embedding : Embedding} {db next : Db} {rowid : Nat}
    (ran : insertVector embedding db = .ok (rowid, next)) :
    ∃ embeddings, db.embeddings.insert? ⟨rowid, embedding⟩ = some embeddings ∧
      next = { db with embeddings := embeddings, vectorSequence := rowid } := by
  have declared := of_reads_bind ran
  obtain ⟨_, checked⟩ := of_require_bind declared
  have assigned := of_reads_bind checked
  have attempted := of_reads_bind assigned
  obtain ⟨embeddings, inserted, written⟩ := of_expect_bind attempted
  obtain ⟨_, _, writeRan, done⟩ := bind_eq_ok.mp written
  cases writes_eq_ok.mp writeRan
  cases pure_eq_ok.mp done
  exact ⟨embeddings, inserted, rfl⟩

theorem insertEmbeddingMapRow_ok {row : EmbeddingMapRow} {db next : Db} {value : Unit}
    (ran : insertEmbeddingMapRow row db = .ok (value, next)) :
    ∃ embeddingMap, db.memories.contains row.memoryId = true ∧
      db.embeddingMap.insert? row = some embeddingMap ∧
      next = { db with embeddingMap := embeddingMap } := by
  have claimed := of_reads_bind ran
  obtain ⟨_, unclaimed⟩ := of_require_bind claimed
  have parent := of_reads_bind unclaimed
  obtain ⟨present, checked⟩ := of_require_bind parent
  have attempted := of_reads_bind checked
  obtain ⟨embeddingMap, inserted, written⟩ := of_expect_bind attempted
  cases writes_eq_ok.mp written
  exact ⟨embeddingMap, present, inserted, rfl⟩

theorem Db.find?_dropEmbedding_insert {db : Db} {rowid : Nat}
    {embedding : Embedding} {embeddings : Table VectorRow.rowid} (mapOk : MapOk db)
    (inserted : db.embeddings.insert? ⟨rowid, embedding⟩ = some embeddings) (id : MemoryId)
    (other : Nat) :
    (Db.dropEmbedding { db with embeddings := embeddings, vectorSequence := rowid }
        id).embeddings.find? other =
      if other = rowid then some ⟨rowid, embedding⟩
      else (db.dropEmbedding id).embeddings.find? other := by
  have unused : db.embeddings.find? rowid = none := by
    simpa [Table.contains] using (Table.insert?_eq_some_iff.mp inserted).1
  simp only [Db.find?_dropEmbedding, Table.find?_insert? inserted]
  by_cases equal : other = rowid
  · subst equal
    rw [if_pos rfl, if_pos rfl, if_neg]
    simp only [Option.any_eq_true, beq_iff_eq, not_exists, not_and]
    intro mapping found sameRowid
    have vector := (mapOk.mapped mapping (Table.mem_of_find? found)).2
    rw [Table.contains, sameRowid, unused] at vector
    cases vector
  · rw [if_neg equal, if_neg equal]

/-- An upsert moves the mapping of a memory to a vector of its own. -/
theorem vectorUpsert_ok {dimensions : Nat} {id : MemoryId} {embedding : Embedding} {db next : Db}
    {value : Unit} (mapOk : MapOk db)
    (ran : vectorUpsert dimensions id embedding db = .ok (value, next)) :
    ∃ rowid, Attaches id rowid embedding (db.dropEmbedding id) next := by
  obtain ⟨_, _, validated⟩ := (readsOnly_validateEmbeddingVector _ _).of_bind ran
  obtain ⟨rowid, _, insertRan, moved⟩ := bind_eq_ok.mp validated
  obtain ⟨embeddings, inserted, rfl⟩ := insertVector_ok insertRan
  obtain ⟨_, _, deleteRan, mapRan⟩ := bind_eq_ok.mp moved
  cases writes_eq_ok.mp deleteRan
  obtain ⟨embeddingMap, present, mapInserted, rfl⟩ := insertEmbeddingMapRow_ok mapRan
  have vectors := Db.find?_dropEmbedding_insert mapOk inserted id
  have unused : db.embeddings.find? rowid = none := by
    simpa [Table.contains] using (Table.insert?_eq_some_iff.mp inserted).1
  refine ⟨rowid, ?_⟩
  exact
    { memories := by simp only [Db.dropEmbedding_memories]
      profile := by simp only [Db.dropEmbedding_embeddingProfile]
      exists_memory := by simpa only [Db.dropEmbedding_memories] using present
      unmapped := by simp [Table.find?_delete]
      unused := by simp [Db.find?_dropEmbedding, unused]
      map := fun other => by
        rw [Table.find?_insert? mapInserted]
        simp only [Db.dropEmbedding_embeddingMap]
      vectors := vectors }

/-- After an upsert the memory is mapped to the new vector, and no other
memory is affected. -/
theorem vectorUpsert_settles {dimensions : Nat} {id : MemoryId} {embedding : Embedding}
    {db next : Db} {value : Unit} (mapOk : MapOk db)
    (ran : vectorUpsert dimensions id embedding db = .ok (value, next)) :
    OnlyAt id db next ∧ next.memories = db.memories ∧ next.vectorOf id = some embedding ∧
      next.embeddingMap.contains id = true := by
  obtain ⟨rowid, attaches⟩ := vectorUpsert_ok mapOk ran
  refine ⟨IsTrans.trans _ _ _ (onlyAt_dropEmbedding db id) attaches.onlyAt, ?_,
    attaches.vectorOf_self, ?_⟩
  · rw [attaches.memories, Db.dropEmbedding_memories]
  · simp [Table.contains, attaches.map]

/-! ## Statements that leave the index alone -/

theorem Db.indexSide_updateWhere {db : Db} {hit : MemoryRow → Bool}
    {change : MemoryRow → MemoryRow} {keepsKey : ∀ row, (change row).id = row.id}
    (sameColumns : ∀ row, (change row).indexedColumns = row.indexedColumns) :
    Db.indexSide { db with memories := db.memories.updateWhere hit change keepsKey } =
      db.indexSide := by
  simp only [Db.indexSide, Table.updateWhere, List.map_map, Prod.mk.injEq, and_true]
  apply List.map_congr_left
  intro row _
  by_cases hitRow : hit row = true
  · simp [hitRow, sameColumns]
  · simp [hitRow]

theorem keepsIndex_updateMemoryWhere {id : MemoryId} {guard : MemoryRow → Bool}
    {change : MemoryRow → MemoryRow} {keepsKey : ∀ row, (change row).id = row.id}
    (sameColumns : ∀ row, (change row).indexedColumns = row.indexedColumns) :
    KeepsIndex (updateMemoryWhere id guard change keepsKey) := by
  refine Within.bind Within.reads fun _ => ?_
  refine Within.bind (Within.writes fun db => ?_) fun _ => Within.pure
  exact Db.indexSide_updateWhere sameColumns

theorem keepsIndex_insertEntities (id : MemoryId) (entities : List Entity) :
    KeepsIndex (insertEntities id entities) := by
  apply Within.forM
  intro entity _
  refine Within.bind Within.reads fun _ => ?_
  exact Within.bind Within.require fun _ => Within.writes fun _ => rfl

theorem keepsIndex_replaceEntities (id : MemoryId) (entities : List Entity) :
    KeepsIndex (replaceEntities id entities) :=
  Within.bind (Within.writes fun _ => rfl) fun _ => keepsIndex_insertEntities id entities

theorem keepsIndex_upsertMetadata (metadata : MemoryMetadata) (now : Instant) :
    KeepsIndex (upsertMetadata metadata now) := by
  refine Within.bind Within.reads fun _ => ?_
  exact Within.bind Within.require fun _ => Within.writes fun _ => rfl

theorem keepsIndex_setMetadataScope (id : MemoryId) (scope : String) (now : Instant) :
    KeepsIndex (setMetadataScope id scope now) :=
  Within.writes fun _ => rfl

theorem keepsIndex_deleteMembershipRows (id : MemoryId) :
    KeepsIndex (deleteMembershipRows id) :=
  Within.writes fun _ => rfl

theorem keepsIndex_insertMembershipRows (id : MemoryId) (contextIds : List ContextId)
    (now : Instant) : KeepsIndex (insertMembershipRows id contextIds now) := by
  apply Within.forM
  intro entry _
  refine Within.bind Within.reads fun _ => ?_
  refine Within.bind Within.require fun _ => ?_
  refine Within.bind Within.reads fun _ => ?_
  refine Within.bind Within.require fun _ => ?_
  exact Within.reads_expect_writes fun _ _ _ => rfl

theorem keepsIndex_insertAuditDraft (id : MemoryId) (audit : AuditDraft) :
    KeepsIndex (insertAuditDraft id audit) :=
  Within.writes fun _ => rfl

theorem keepsIndex_insertContextAudit (audit : ContextAuditDraft) (contextId : Option ContextId)
    (memoryId : Option MemoryId) (now : Instant) :
    KeepsIndex (insertContextAudit audit contextId memoryId now) :=
  Within.writes fun _ => rfl

theorem keepsIndex_insertTombstone (memory : Memory) (deletedAt : Instant)
    (deletedBy : Option String) : KeepsIndex (insertTombstone memory deletedAt deletedBy) :=
  Within.writes fun _ => rfl

theorem keepsIndex_incrementRecordRevision (id : MemoryId) (action : String) :
    KeepsIndex (incrementRecordRevision id action) :=
  Within.bind (keepsIndex_updateMemoryWhere fun _ => rfl) fun _ => Within.require

theorem keepsIndex_markSuperseded (oldId newId : MemoryId) :
    KeepsIndex (markSuperseded oldId newId) := by
  refine Within.bind Within.reads fun existing => ?_
  cases existing with
  | none => exact Within.pure
  | some memory =>
      refine Within.bind Within.require fun _ => ?_
      refine Within.bind (keepsIndex_updateMemoryWhere fun _ => rfl) fun _ => ?_
      exact Within.bind Within.require fun _ => Within.pure

section Contexts

variable [Host]

theorem keepsIndex_insertMemoryContexts (id : MemoryId) (contextIds : List ContextId)
    (principal scope : String) (audit : ContextAuditDraft) (now : Instant)
    (preserved : List ContextId) :
    KeepsIndex (insertMemoryContexts id contextIds principal scope audit now preserved) := by
  refine Within.bind (readsOnly_validateAuditActor audit principal).within fun _ => ?_
  refine Within.bind Within.require fun _ => ?_
  refine Within.bind (readsOnly_requireUsableContexts _ _ _).within fun _ => ?_
  refine Within.bind (readsOnly_primaryContextKey contextIds).within fun _ => ?_
  refine Within.bind Within.require fun _ => ?_
  refine Within.bind (keepsIndex_insertMembershipRows id contextIds now) fun _ => ?_
  exact keepsIndex_insertContextAudit _ _ _ _

theorem keepsIndex_replaceMemoryContextsTx (id : MemoryId) (contextIds : List ContextId)
    (principal scope : String) (audit : ContextAuditDraft) (now : Instant) :
    KeepsIndex (replaceMemoryContextsTx id contextIds principal scope audit now) := by
  refine Within.bind Within.reads fun _ => ?_
  refine Within.bind (keepsIndex_deleteMembershipRows id) fun _ => ?_
  refine Within.bind (keepsIndex_insertMemoryContexts _ _ _ _ _ _ _) fun _ => ?_
  refine Within.bind (keepsIndex_setMetadataScope id scope now) fun _ => ?_
  exact Within.bind (keepsIndex_updateMemoryWhere fun _ => rfl) fun _ => Within.pure

end Contexts

/-! ## Settling one memory -/

section Settling

variable {written : MemoryId → EmbeddingView → Prop}

theorem find?_updateById {memories : Table MemoryRow.id} {id : MemoryId}
    {change : MemoryRow → MemoryRow} {keepsKey : ∀ row, (change row).id = row.id} :
    (memories.updateWhere (fun row => decide (row.id = id) && true) change keepsKey).find? id =
      (memories.find? id).map change := by
  rw [Table.find?_updateWhere]
  cases found : memories.find? id with
  | none => rfl
  | some row =>
      have rowKey := Table.find?_key found
      simp [rowKey]

/-- New content clears the flag, advances the embedding revision and drops the
vector. -/
theorem growing_contentChange {db : Db} {id : MemoryId} {change : MemoryRow → MemoryRow}
    {keepsKey : ∀ row, (change row).id = row.id}
    (clears : ∀ row, (change row).hasEmbedding = 0)
    (bumps : ∀ row, row.embeddingRevision < (change row).embeddingRevision) :
    Growing written db (Db.dropEmbedding { db with
      memories := db.memories.updateWhere (fun row => decide (row.id = id) && true) change
        keepsKey } id) := by
  apply OnlyAt.growing (IsTrans.trans _ _ _ onlyAt_updateWhere (onlyAt_dropEmbedding _ id))
  intro _
  refine ⟨?_, ⟨?_, ?_⟩⟩
  · intro row found
    simp only [Db.dropEmbedding_memories, find?_updateById] at found
    obtain ⟨old, _, rfl⟩ := Option.map_eq_some_iff.mp found
    simp [clears, Table.contains_delete]
  · intro old new oldView newView
    simp only [Db.embeddingView, Db.indexed, Db.dropEmbedding_memories, find?_updateById,
      Option.map_map, Option.map_eq_some_iff, Function.comp_apply] at oldView newView
    obtain ⟨oldRow, oldFound, rfl⟩ := oldView
    obtain ⟨newRow, newFound, rfl⟩ := newView
    rw [oldFound] at newFound
    cases newFound
    refine ⟨le_of_lt (bumps oldRow), Or.inr (bumps oldRow), Or.inl ?_⟩
    simp [MemoryRow.indexedColumns, clears]
  · intro new oldView newView
    rw [Db.embeddingView_eq_none_iff, Db.indexed, Option.map_eq_none_iff] at oldView
    simp [Db.embeddingView, Db.indexed, oldView] at newView

/-- A vector is written and then flagged. -/
theorem growing_of_flagged {dimensions : Nat} {id : MemoryId} {embedding : Embedding}
    {db middle next : Db} {value : Unit} {guard : MemoryRow → Bool}
    {change : MemoryRow → MemoryRow} {keepsKey : ∀ row, (change row).id = row.id}
    (upsertRan : vectorUpsert dimensions id embedding db = .ok (value, middle))
    (flagRan : updateMemoryWhere id guard change keepsKey middle = .ok (true, next))
    (flags : ∀ row, (change row).indexedColumns = { row.indexedColumns with hasEmbedding := 1 })
    (wrote : ∀ columns, db.indexed id = some columns →
      written id ⟨columns.content, columns.embeddingRevision, some embedding,
        db.embeddingProfile⟩) :
    Growing written db next := by
  intro indexOk
  obtain ⟨upserted, sameMemories, vectorEq, mapped⟩ :=
    vectorUpsert_settles indexOk.toMapOk upsertRan
  have affected := of_reads_bind flagRan
  obtain ⟨_, _, writeRan, returned⟩ := bind_eq_ok.mp affected
  cases writes_eq_ok.mp writeRan
  obtain ⟨hit, rfl⟩ := Prod.mk.inj (pure_eq_ok.mp returned)
  cases found : middle.memories.find? id with
  | none => simp [found] at hit
  | some row =>
      simp only [found] at hit
      have rowKey := Table.find?_key found
      have columnsAfter : Db.indexed { middle with
          memories := middle.memories.updateWhere (fun row => decide (row.id = id) && guard row)
            change keepsKey } id = some { row.indexedColumns with hasEmbedding := 1 } := by
        simp [Db.indexed, found, rowKey, hit, flags]
      have columnsBefore : db.indexed id = some row.indexedColumns := by
        simp [Db.indexed, ← sameMemories, found]
      refine OnlyAt.growing (IsTrans.trans _ _ _ upserted onlyAt_updateWhere) (fun _ => ?_) indexOk
      refine ⟨?_, ⟨?_, ?_⟩⟩
      · intro other otherFound
        have flagEq : other.hasEmbedding = 1 := by
          have columns := congrArg (Option.map IndexedColumns.hasEmbedding) columnsAfter
          simpa [Db.indexed, otherFound, MemoryRow.indexedColumns] using columns
        simp [flagEq, mapped]
      · intro old new oldView newView
        simp only [Db.embeddingView, columnsBefore, Option.map_some, Option.some.injEq] at oldView
        simp only [Db.embeddingView, columnsAfter, Option.map_some, Option.some.injEq] at newView
        subst oldView newView
        refine ⟨le_refl _, Or.inl rfl, Or.inr (Or.inr ?_)⟩
        have wroteView := wrote row.indexedColumns columnsBefore
        rw [← upserted.profile, ← vectorEq] at wroteView
        exact wroteView
      · intro new oldView _
        simp [Db.embeddingView, columnsBefore] at oldView

end Settling

end LocalHold
