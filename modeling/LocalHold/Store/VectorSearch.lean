import Mathlib.Data.List.Sort
import LocalHold.Transition.Run
import LocalHold.Store.IndexRuns

/-!
# Opening the vector index and searching it

Opening a database rebuilds a map table from before the foreign key and then
validates the index; a database with a broken index is refused.  The nearest
neighbour query joins the nearest vectors with the map.  On a well-formed index
the join loses no row, so a short result means that the index is exhausted.
-/

namespace LocalHold

open Relational Transition Transition.Txn

/-! ## Opening -/

/-- A database file as far as the index is concerned: the tables of the current
definition, or in place of the map the rows of a map table that has no foreign
key. -/
structure IndexFile where
  db : Db
  /-- The `UNIQUE` constraint of the current map table. -/
  uniqueVectors : (db.embeddingMap.rows.map EmbeddingMapRow.vecRowid).Nodup
  /-- The rows of a map table without foreign key. -/
  legacyMap : Option (List EmbeddingMapRow)

/-- `migrate_memory_embedding_map_fk`: rebuild the map, dropping rows of memories
that do not exist. -/
def migrateMemoryEmbeddingMapFk (legacyMap : Option (List EmbeddingMapRow)) : StoreM Unit :=
  match legacyMap with
  | none => pure ()
  | some rows => do
      writes fun db => { db with embeddingMap := Table.empty }
      let kept ← reads fun db => rows.filter fun row => db.memories.contains row.memoryId
      kept.forM insertEmbeddingMapRow

/-- Abort when offending rows exist. -/
def refuseOffenders (count : Nat) (complaint : String) : StoreM Unit :=
  require (count == 0) (.conflict ("SQLite source has " ++ toString count ++ complaint))

/-- `validate_embedding_flag_integrity`. -/
def validateEmbeddingFlagIntegrity : StoreM Unit := do
  let invalid ← reads fun db =>
    db.memories.select fun row => !(row.hasEmbedding == 0 || row.hasEmbedding == 1)
  refuseOffenders invalid.length " memory row(s) with a non-canonical has_embedding value"
  let missing ← reads fun db =>
    db.memories.select fun row => row.hasEmbedding == 1 && !db.embeddingMap.contains row.id
  refuseOffenders missing.length
    " memory row(s) with has_embedding=true but no embedding map entry"
  let unexpected ← reads fun db =>
    db.memories.select fun row => row.hasEmbedding == 0 && db.embeddingMap.contains row.id
  refuseOffenders unexpected.length
    " memory row(s) with has_embedding=false but an embedding map entry exists"

/-- `validate_embedding_map_integrity`. -/
def validateEmbeddingMapIntegrity : StoreM Unit := do
  let orphans ← reads fun db =>
    db.embeddingMap.select fun mapping => !db.memories.contains mapping.memoryId
  refuseOffenders orphans.length " embedding map row(s) without matching memories"
  let dangling ← reads fun db =>
    db.embeddingMap.select fun mapping => !db.embeddings.contains mapping.vecRowid
  refuseOffenders dangling.length
    " embedding map row(s) whose vec_rowid does not exist in memory_embeddings"
  let unmapped ← reads fun db =>
    db.embeddings.select fun vector =>
      !db.embeddingMap.rows.any fun mapping => mapping.vecRowid == vector.rowid
  refuseOffenders unmapped.length " vector row(s) without a matching embedding map entry"
  validateEmbeddingFlagIntegrity

/-- The steps of `init_schema` that concern the index, in its one transaction;
the other migration steps leave the index alone. -/
def openIndex (file : IndexFile) : Except StoreError Db :=
  let steps : StoreM Unit := do
    migrateMemoryEmbeddingMapFk file.legacyMap
    validateEmbeddingMapIntegrity
  (steps file.db).map Prod.snd

/-! ## Searching -/

/-- One nearest neighbour. -/
structure VectorHit (δ : Type) where
  memoryId : MemoryId
  distance : δ

/-- The neighbours of a query and the number of joined rows. -/
structure VectorBatch (δ : Type) where
  hits : List (VectorHit δ)
  returnedCount : Nat

/-- The nearest vectors of the vector table. -/
def Db.nearest {δ : Type} [LE δ] [DecidableRel (α := δ) (· ≤ ·)] (db : Db)
    (distance : Embedding → δ) (limit : Nat) : List VectorRow :=
  (db.embeddings.rows.mergeSort fun first second =>
    decide (distance first.embedding ≤ distance second.embedding)).take limit

/-- `SqliteVecIndex::search_batch`.  The vector table bounds the number of
neighbours it accepts by its own `capacity`. -/
def searchBatch {δ : Type} [LE δ] [DecidableRel (α := δ) (· ≤ ·)] (capacity dimensions : Nat)
    (distance : Embedding → Embedding → δ) (query : Embedding) (limit : Nat) :
    StoreM (VectorBatch δ) := do
  if limit = 0 then
    return ⟨[], 0⟩
  else
    validateEmbeddingVector query dimensions
    require (limit < 2 ^ 63)
      (.database ("vector candidate limit " ++ toString limit ++ " exceeds i64 range: " ++
        "out of range integral type conversion attempted"))
    require (limit ≤ capacity)
      (.database ("k value in knn query too large, provided " ++ toString limit ++
        " and the limit is " ++ toString capacity))
    let joined ← reads fun db =>
      Table.join (db.nearest (distance query) limit) db.embeddingMap.rows VectorRow.rowid
        EmbeddingMapRow.vecRowid
    let hits := (joined.mergeSort fun first second =>
      decide (distance query first.1.embedding ≤ distance query second.1.embedding)).map
        fun pair => (⟨pair.2.memoryId, distance query pair.1.embedding⟩ : VectorHit δ)
    return ⟨hits, hits.length⟩

/-! ## An opened index is well formed -/

/-- No two map rows name one vector. -/
def UniqueVectors (db : Db) : Prop :=
  (db.embeddingMap.rows.map EmbeddingMapRow.vecRowid).Nodup

theorem UniqueVectors.unshared {db : Db} (unique : UniqueVectors db)
    {first second : EmbeddingMapRow} (firstMem : first ∈ db.embeddingMap)
    (secondMem : second ∈ db.embeddingMap) (sameRowid : first.vecRowid = second.vecRowid) :
    first = second :=
  List.inj_on_of_nodup_map unique firstMem secondMem sameRowid

theorem uniqueVectors_insertEmbeddingMapRow (row : EmbeddingMapRow) :
    Within (fun before after => UniqueVectors before → UniqueVectors after)
      (insertEmbeddingMapRow row) := by
  intro db value next ran unique
  have claimed := of_reads_bind ran
  obtain ⟨unclaimed, _⟩ := of_require_bind claimed
  obtain ⟨embeddingMap, _, inserted, rfl⟩ := insertEmbeddingMapRow_ok ran
  have rowsEq := (Table.insert?_eq_some_iff.mp inserted).2
  simp only [UniqueVectors, rowsEq, List.map_append, List.map_cons, List.map_nil]
  rw [List.nodup_append]
  refine ⟨unique, by simp, ?_⟩
  intro rowid rowidMem other otherMem equal
  obtain ⟨mapping, mappingMem, rfl⟩ := List.mem_map.mp rowidMem
  rw [List.mem_singleton] at otherMem
  have taken : (db.embeddingMap.rows.any fun mapping => mapping.vecRowid == row.vecRowid) = true :=
    List.any_eq_true.mpr ⟨mapping, mappingMem, by simp [equal, otherMem]⟩
  rw [taken] at unclaimed
  cases unclaimed

theorem uniqueVectors_migrate (legacyMap : Option (List EmbeddingMapRow)) :
    Within (fun before after => UniqueVectors before → UniqueVectors after)
      (migrateMemoryEmbeddingMapFk legacyMap) := by
  have refl : Std.Refl (fun before after : Db => UniqueVectors before → UniqueVectors after) :=
    ⟨fun _ unique => unique⟩
  have trans : IsTrans Db (fun before after => UniqueVectors before → UniqueVectors after) :=
    ⟨fun _ _ _ early late unique => late (early unique)⟩
  cases legacyMap with
  | none => exact Within.pure
  | some rows =>
      refine Within.bind (Within.writes fun _ _ => List.nodup_nil) fun _ => ?_
      refine Within.bind Within.reads fun _ => ?_
      exact Within.forM fun row _ => uniqueVectors_insertEmbeddingMapRow row

theorem of_refuseOffenders_bind {ρ κ α : Type} {key : ρ → κ} {table : Table key}
    {offends : ρ → Bool} {complaint : String} {rest : Unit → StoreM α} {db : Db}
    {result : α × Db}
    (ran : (refuseOffenders (table.select offends).length complaint >>= rest) db = .ok result) :
    (∀ row ∈ table, offends row = false) ∧ rest () db = .ok result := by
  obtain ⟨noOffender, continued⟩ := of_require_bind ran
  refine ⟨fun row rowMem => ?_, continued⟩
  have empty : table.select offends = [] := by simpa using noOffender
  by_contra offending
  have selected : row ∈ table.select offends :=
    Table.mem_select_iff.mpr ⟨rowMem, by simpa using offending⟩
  rw [empty] at selected
  cases selected

theorem flagOk_of_validated {db : Db} {result : Unit × Db}
    (ran : validateEmbeddingFlagIntegrity db = .ok result) (id : MemoryId) : FlagOk db id := by
  have read := of_reads_bind ran
  obtain ⟨canonical, read⟩ := of_refuseOffenders_bind read
  have read := of_reads_bind read
  obtain ⟨noMissing, read⟩ := of_refuseOffenders_bind read
  have read := of_reads_bind read
  have noUnexpected : ∀ row ∈ db.memories,
      (row.hasEmbedding == 0 && db.embeddingMap.contains row.id) = false := by
    have bound : ((refuseOffenders (db.memories.select fun row =>
        row.hasEmbedding == 0 && db.embeddingMap.contains row.id).length
        " memory row(s) with has_embedding=false but an embedding map entry exists" >>= pure) db) =
          .ok result := by
      rw [bind_pure]
      exact read
    exact (of_refuseOffenders_bind bound).1
  intro row found
  have rowMem := Table.mem_of_find? found
  have rowKey := Table.find?_key found
  have flagValue := canonical row rowMem
  have missing := noMissing row rowMem
  have unexpected := noUnexpected row rowMem
  rw [rowKey] at missing unexpected
  constructor
  · intro flagged
    simpa [flagged] using missing
  · intro mapped
    by_contra unflagged
    simp [unflagged] at flagValue
    simp [flagValue, mapped] at unexpected

/-- A database that opens has a well-formed index. -/
theorem indexOk_of_openIndex {file : IndexFile} {opened : Db}
    (openRan : openIndex file = .ok opened) : IndexOk opened := by
  unfold openIndex at openRan
  simp only at openRan
  cases stepsRan : (migrateMemoryEmbeddingMapFk file.legacyMap >>= fun _ =>
      validateEmbeddingMapIntegrity) file.db with
  | error error =>
      rw [stepsRan] at openRan
      cases openRan
  | ok result =>
      rw [stepsRan] at openRan
      obtain ⟨_, final⟩ := result
      cases openRan
      obtain ⟨_, migrated, migrateRan, validateRan⟩ := bind_eq_ok.mp stepsRan
      have unique : UniqueVectors migrated :=
        uniqueVectors_migrate file.legacyMap migrateRan file.uniqueVectors
      have validateReads : ReadsOnly validateEmbeddingMapIntegrity := by
        refine Within.bind Within.reads fun _ => Within.bind Within.require fun _ => ?_
        refine Within.bind Within.reads fun _ => Within.bind Within.require fun _ => ?_
        refine Within.bind Within.reads fun _ => Within.bind Within.require fun _ => ?_
        refine Within.bind Within.reads fun _ => Within.bind Within.require fun _ => ?_
        refine Within.bind Within.reads fun _ => Within.bind Within.require fun _ => ?_
        exact Within.bind Within.reads fun _ => Within.require
      have same : final = migrated := validateReads validateRan
      subst same
      have read := of_reads_bind validateRan
      obtain ⟨noOrphan, read⟩ := of_refuseOffenders_bind read
      have read := of_reads_bind read
      obtain ⟨noDangling, read⟩ := of_refuseOffenders_bind read
      have read := of_reads_bind read
      obtain ⟨noUnmapped, flagsRan⟩ := of_refuseOffenders_bind read
      refine ⟨⟨?_, ?_, ?_⟩, flagOk_of_validated flagsRan⟩
      · intro mapping mappingMem
        exact ⟨by simpa using noOrphan mapping mappingMem,
          by simpa using noDangling mapping mappingMem⟩
      · intro vector vectorMem
        have named := noUnmapped vector vectorMem
        simp only [Bool.not_eq_false', List.any_eq_true, beq_iff_eq] at named
        exact named
      · intro first firstMem second secondMem sameRowid
        exact unique.unshared firstMem secondMem sameRowid

/-! ## Completeness of the joined query -/

/-- The memories that have a vector. -/
def Db.embeddedMemories (db : Db) : List MemoryRow :=
  db.memories.select fun row => decide (row.hasEmbedding = 1)

theorem MapOk.uniqueVectors {db : Db} (mapOk : MapOk db) : UniqueVectors db := by
  have rowsNodup : db.embeddingMap.rows.Nodup := db.embeddingMap.nodup.of_map _
  exact List.Nodup.map_on (fun first firstMem second secondMem sameRowid =>
    mapOk.unshared first firstMem second secondMem sameRowid) rowsNodup

theorem MapOk.length_embeddings {db : Db} (mapOk : MapOk db) :
    db.embeddings.rows.length = db.embeddingMap.rows.length := by
  have samePointers : (db.embeddings.rows.map VectorRow.rowid).Perm
      (db.embeddingMap.rows.map EmbeddingMapRow.vecRowid) := by
    rw [List.perm_ext_iff_of_nodup db.embeddings.nodup mapOk.uniqueVectors]
    intro rowid
    simp only [List.mem_map]
    constructor
    · rintro ⟨vector, vectorMem, rfl⟩
      exact mapOk.named vector vectorMem
    · rintro ⟨mapping, mappingMem, rfl⟩
      obtain ⟨vector, vectorMem, rowidEq⟩ :=
        Table.contains_eq_true_iff.mp (mapOk.mapped mapping mappingMem).2
      exact ⟨vector, vectorMem, rowidEq⟩
  simpa using samePointers.length_eq

theorem IndexOk.mapped_of_embedded {db : Db} (indexOk : IndexOk db) {row : MemoryRow}
    (rowMem : row ∈ db.memories) :
    row.hasEmbedding = 1 ↔ ∃ mapping ∈ db.embeddingMap, mapping.memoryId = row.id := by
  rw [indexOk.flagged row.id row (Table.mem_iff_find?.mp rowMem), Table.contains_eq_true_iff]

theorem IndexOk.length_embeddedMemories {db : Db} (indexOk : IndexOk db) :
    db.embeddedMemories.length = db.embeddingMap.rows.length := by
  have sameIds : (db.embeddedMemories.map MemoryRow.id).Perm
      (db.embeddingMap.rows.map EmbeddingMapRow.memoryId) := by
    have idsNodup : (db.embeddedMemories.map MemoryRow.id).Nodup :=
      db.memories.nodup.sublist (List.filter_sublist.map _)
    rw [List.perm_ext_iff_of_nodup idsNodup db.embeddingMap.nodup]
    intro id
    simp only [List.mem_map]
    constructor
    · rintro ⟨row, rowMem, rfl⟩
      obtain ⟨stored, flagged⟩ := Table.mem_select_iff.mp rowMem
      exact (indexOk.mapped_of_embedded stored).mp (of_decide_eq_true flagged)
    · rintro ⟨mapping, mappingMem, rfl⟩
      obtain ⟨row, rowMem, rowId⟩ :=
        Table.contains_eq_true_iff.mp (indexOk.mapped mapping mappingMem).1
      have flagged := (indexOk.mapped_of_embedded rowMem).mpr ⟨mapping, mappingMem, rowId.symm⟩
      exact ⟨row, Table.mem_select_iff.mpr ⟨rowMem, decide_eq_true flagged⟩, rowId⟩
  simpa using sameIds.length_eq

section Search

variable {δ : Type} [LE δ] [DecidableRel (α := δ) (· ≤ ·)] {db : Db}

theorem Db.length_nearest (distance : Embedding → δ) (limit : Nat) :
    (db.nearest distance limit).length = min limit db.embeddings.rows.length := by
  simp [Db.nearest]

theorem Db.mem_of_mem_nearest {distance : Embedding → δ} {limit : Nat} {vector : VectorRow}
    (near : vector ∈ db.nearest distance limit) : vector ∈ db.embeddings :=
  List.mem_mergeSort.mp (List.mem_of_mem_take near)

/-- The join of the nearest vectors with the map loses no row. -/
theorem MapOk.length_join_nearest (mapOk : MapOk db) (distance : Embedding → δ) (limit : Nat) :
    (Table.join (db.nearest distance limit) db.embeddingMap.rows VectorRow.rowid
      EmbeddingMapRow.vecRowid).length = min limit db.embeddings.rows.length := by
  rw [Table.length_join mapOk.uniqueVectors, Db.length_nearest]
  intro vector near
  exact mapOk.named vector (Db.mem_of_mem_nearest near)

/-- What a successful search returns. -/
theorem searchBatch_ok {capacity dimensions limit : Nat} {distance : Embedding → Embedding → δ}
    {query : Embedding} {batch : VectorBatch δ} {next : Db}
    (ran : searchBatch capacity dimensions distance query limit db = .ok (batch, next)) :
    batch.returnedCount = (Table.join (db.nearest (distance query) limit) db.embeddingMap.rows
        VectorRow.rowid EmbeddingMapRow.vecRowid).length ∧
      ∀ mapping ∈ db.embeddingMap, ∀ vector ∈ db.nearest (distance query) limit,
        mapping.vecRowid = vector.rowid → ∃ hit ∈ batch.hits, hit.memoryId = mapping.memoryId := by
  unfold searchBatch at ran
  split at ran
  case isTrue zero =>
    cases pure_eq_ok.mp ran
    subst zero
    simp [Db.nearest, Table.join]
  case isFalse =>
    obtain ⟨_, _, validated⟩ := (readsOnly_validateEmbeddingVector _ _).of_bind ran
    obtain ⟨_, inRange⟩ := of_require_bind validated
    obtain ⟨_, accepted⟩ := of_require_bind inRange
    have read := of_reads_bind accepted
    cases pure_eq_ok.mp read
    refine ⟨by simp, fun mapping mappingMem vector near sameRowid => ?_⟩
    refine ⟨⟨mapping.memoryId, distance query vector.embedding⟩, ?_, rfl⟩
    apply List.mem_map.mpr
    refine ⟨(vector, mapping), List.mem_mergeSort.mpr ?_, rfl⟩
    exact Table.mem_join_iff.mpr ⟨near, mappingMem, sameRowid⟩

/-- A search returns as many rows as it may, and a short result holds every
embedded memory. -/
theorem IndexOk.searchBatch_complete (indexOk : IndexOk db) {capacity dimensions limit : Nat}
    {distance : Embedding → Embedding → δ} {query : Embedding} {batch : VectorBatch δ} {next : Db}
    (ran : searchBatch capacity dimensions distance query limit db = .ok (batch, next)) :
    batch.returnedCount = min limit db.embeddedMemories.length ∧
      (batch.returnedCount < limit → ∀ row ∈ db.embeddedMemories,
        ∃ hit ∈ batch.hits, hit.memoryId = row.id) := by
  obtain ⟨countEq, hits⟩ := searchBatch_ok ran
  have count : batch.returnedCount = min limit db.embeddedMemories.length := by
    rw [countEq, indexOk.length_join_nearest, indexOk.length_embeddings,
      indexOk.length_embeddedMemories]
  refine ⟨count, fun short row rowMem => ?_⟩
  obtain ⟨stored, flagged⟩ := Table.mem_select_iff.mp rowMem
  obtain ⟨mapping, mappingMem, mappingId⟩ :=
    (indexOk.mapped_of_embedded stored).mp (of_decide_eq_true flagged)
  obtain ⟨vector, vectorMem, sameRowid⟩ :=
    Table.contains_eq_true_iff.mp (indexOk.mapped mapping mappingMem).2
  have fits : db.embeddings.rows.length ≤ limit := by
    rw [indexOk.length_embeddings, ← indexOk.length_embeddedMemories]
    omega
  have near : vector ∈ db.nearest (distance query) limit := by
    rw [Db.nearest, List.take_of_length_le (by simpa using fits)]
    exact List.mem_mergeSort.mpr vectorMem
  rw [← mappingId]
  exact hits mapping mappingMem vector near sameRowid.symm

end Search

/-! ## Every reachable state -/

/-- In every state reachable from a database that opens, the map joins memories
and vectors exactly, the flags agree with it, and the joined query returns as
many rows as there are embedded memories to return. -/
theorem vector_index_represented [Host] {δ : Type} [LE δ] [DecidableRel (α := δ) (· ≤ ·)]
    {file : IndexFile} {opened db : Db} {calls : List StoreCall} (openRan : openIndex file = .ok opened)
    (runEq : run storeStep opened calls = some db) :
    (∀ mapping ∈ db.embeddingMap, (∃ row ∈ db.memories, row.id = mapping.memoryId) ∧
      ∃ vector ∈ db.embeddings, vector.rowid = mapping.vecRowid) ∧
    (∀ vector ∈ db.embeddings,
      ∃! mapping, mapping ∈ db.embeddingMap ∧ mapping.vecRowid = vector.rowid) ∧
    (∀ row ∈ db.memories, row.hasEmbedding = 1 ↔
      ∃ mapping ∈ db.embeddingMap, mapping.memoryId = row.id) ∧
    ∀ (capacity dimensions limit : Nat) (distance : Embedding → Embedding → δ)
      (query : Embedding) (batch : VectorBatch δ) (next : Db),
      searchBatch capacity dimensions distance query limit db = .ok (batch, next) →
      batch.returnedCount = min limit db.embeddedMemories.length ∧
        (batch.returnedCount < limit → ∀ row ∈ db.embeddedMemories,
          ∃ hit ∈ batch.hits, hit.memoryId = row.id) := by
  have preserved : ∀ state call next, IndexOk state → storeStep state call = some next →
      IndexOk next := fun _ _ _ holds stepEq => (storeStep_sustains stepEq holds).1
  have indexOk : IndexOk db :=
    run_invariant preserved (indexOk_of_openIndex openRan) runEq
  refine ⟨?_, ?_, ?_, ?_⟩
  · intro mapping mappingMem
    obtain ⟨memory, vector⟩ := indexOk.mapped mapping mappingMem
    exact ⟨Table.contains_eq_true_iff.mp memory, Table.contains_eq_true_iff.mp vector⟩
  · intro vector vectorMem
    obtain ⟨mapping, mappingMem, rowidEq⟩ := indexOk.named vector vectorMem
    refine ⟨mapping, ⟨mappingMem, rowidEq⟩, ?_⟩
    rintro other ⟨otherMem, otherRowid⟩
    exact indexOk.unshared other otherMem mapping mappingMem (otherRowid.trans rowidEq.symm)
  · intro row rowMem
    exact indexOk.mapped_of_embedded rowMem
  · intro capacity dimensions limit distance query batch next ran
    exact indexOk.searchBatch_complete ran

/-- A file with a map row of a memory that no longer exists. -/
def orphanedFile : IndexFile where
  db := Db.empty 1
  uniqueVectors := by decide
  legacyMap := some [⟨⟨9⟩, 4⟩]

/-- Store one memory with a vector of dimension one. -/
def storeEmbedded : StoreCall where
  handle := ⟨1, none⟩
  now := 0
  command := .store
    ⟨Memory.plain ⟨1⟩ "agent" "text" 0, some ⟨[.finite 1], "text", ⟨"p", "e", "m", 1⟩⟩⟩ none

theorem vector_index_represented_after_migration :
    ∃ opened db, openIndex orphanedFile = .ok opened ∧
      @run _ _ (@storeStep asciiHost) opened [storeEmbedded] = some db ∧
      db.embeddings.rows.length = 1 ∧
      ∀ vector ∈ db.embeddings,
        ∃! mapping, mapping ∈ db.embeddingMap ∧ mapping.vecRowid = vector.rowid :=
  ⟨_, _, rfl, rfl, rfl,
    (@vector_index_represented asciiHost Nat _ _ orphanedFile _ _ [storeEmbedded] rfl rfl).2.1⟩

end LocalHold
