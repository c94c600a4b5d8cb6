import LocalHold.Paging.Chunks
import LocalHold.Relational.Grouping
import LocalHold.Store.PagedScan
import LocalHold.Store.Reads

/-!
# Hydration of entities

Rows of memories come without entities.  The batch query reads the entities of
many memories in chunks, into a map that the rows then take their entities
from.  A list of distinct memories gets the entities that a query for each
memory alone would return, whether the list is hydrated before the filter and
the access policy or after them.
-/

namespace LocalHold

open Relational Paging

/-! ## The batch query -/

/-- `EntityMap`. -/
abbrev EntityMap : Type :=
  Groups MemoryId Entity

/-- `ENTITY_BATCH_CHUNK_SIZE`. -/
def entityBatchChunkSize : Nat := 500

/-- The entity rows of a chunk of memories. -/
def Db.entityRows (db : Db) (chunk : List MemoryId) : List (MemoryId × Entity) :=
  (db.entities.select fun row => chunk.contains row.memoryId).map fun row =>
    (row.memoryId, row.entity)

/-- `hydrate_entities_batch`. -/
def Db.hydrateEntitiesBatch (db : Db) (memoryIds : List MemoryId) : EntityMap :=
  (chunks entityBatchChunkSize memoryIds).foldl
    (fun map chunk => map.pushAll (db.entityRows chunk)) Groups.empty

/-- The loop over the rows that takes the entities of each out of the map. -/
def takeEntities {α : Type} (key : α → MemoryId) (give : α → List Entity → α) :
    EntityMap → List α → List α
  | _, [] => []
  | map, row :: rest =>
      match map (key row) with
      | none => row :: takeEntities key give map rest
      | some entities => give row entities :: takeEntities key give (map.remove (key row)) rest

/-- Hydrate a list of rows; an empty list is not queried for. -/
def Db.hydrateRows {α : Type} (db : Db) (key : α → MemoryId) (give : α → List Entity → α)
    (rows : List α) : List α :=
  if rows.isEmpty then rows
  else takeEntities key give (db.hydrateEntitiesBatch (rows.map key)) rows

/-- `hydrate_entities_for_memories`. -/
def Db.hydrateEntitiesForMemories (db : Db) (memories : List Memory) : List Memory :=
  db.hydrateRows Memory.id Memory.withEntities memories

/-- `hydrate_entities_for_ranked_memories`, and the same loop over other pairs. -/
def Db.hydrateEntitiesForRankedMemories {β : Type} (db : Db) (ranked : List (Memory × β)) :
    List (Memory × β) :=
  db.hydrateRows (fun entry => entry.1.id)
    (fun entry entities => (entry.1.withEntities entities, entry.2)) ranked

/-- `hydrate_entities_for_hydrated_rows`. -/
def Db.hydrateEntitiesForHydratedRows (db : Db) (hydrated : List (Memory × MemoryId)) :
    List (Memory × MemoryId) :=
  db.hydrateEntitiesForRankedMemories hydrated

section Batch

variable {db : Db}

theorem rowsOf_entityRows (chunk : List MemoryId) (id : MemoryId) :
    Groups.rowsOf id (db.entityRows chunk) = if id ∈ chunk then db.entitiesOf id else [] := by
  simp only [Groups.rowsOf, Db.entityRows, Db.entitiesOf, Table.select, List.filterMap_map]
  by_cases named : id ∈ chunk
  · rw [if_pos named]
    induction db.entities.rows with
    | nil => rfl
    | cons row rows inductionHypothesis =>
        by_cases same : row.memoryId = id
        · subst same
          simpa [named] using inductionHypothesis
        · by_cases other : row.memoryId ∈ chunk
          · simpa [same, other] using inductionHypothesis
          · simpa [same, other] using inductionHypothesis
  · rw [if_neg named, List.filterMap_eq_nil_iff]
    intro row rowMem
    have inChunk : row.memoryId ∈ chunk := by simpa using (List.mem_filter.mp rowMem).2
    have other : row.memoryId ≠ id := fun same => named (same ▸ inChunk)
    simp [other]

/-- A chunk after another adds the entities of its memories. -/
theorem getD_hydrateChunks (pieces : List (List MemoryId)) (map : EntityMap) (id : MemoryId) :
    ((pieces.foldl (fun map chunk => map.pushAll (db.entityRows chunk)) map) id).getD [] =
      (map id).getD [] ++
        pieces.flatMap fun chunk => if id ∈ chunk then db.entitiesOf id else [] := by
  induction pieces generalizing map with
  | nil => simp
  | cons chunk pieces inductionHypothesis =>
      rw [List.foldl_cons, inductionHypothesis, Groups.getD_pushAll, rowsOf_entityRows,
        List.flatMap_cons, List.append_assoc]

theorem noneEmpty_hydrateEntitiesBatch (memoryIds : List MemoryId) :
    (db.hydrateEntitiesBatch memoryIds).NoneEmpty := by
  have grow (pieces : List (List MemoryId)) (map : EntityMap) (noneEmpty : map.NoneEmpty) :
      (pieces.foldl (fun map chunk => map.pushAll (db.entityRows chunk)) map).NoneEmpty := by
    induction pieces generalizing map with
    | nil => exact noneEmpty
    | cons chunk pieces inductionHypothesis =>
        exact inductionHypothesis _ (noneEmpty.pushAll (db.entityRows chunk))
  exact grow _ _ Groups.noneEmpty_empty

/-- A memory that is named once is named by one chunk. -/
theorem flatMap_of_nodup {pieces : List (List MemoryId)} (distinct : pieces.flatten.Nodup)
    (id : MemoryId) (entities : List Entity) :
    (pieces.flatMap fun chunk => if id ∈ chunk then entities else []) =
      if id ∈ pieces.flatten then entities else [] := by
  induction pieces with
  | nil => simp
  | cons chunk pieces inductionHypothesis =>
      rw [List.flatten_cons] at distinct
      have rest := inductionHypothesis (List.nodup_append.mp distinct).2.1
      rw [List.flatMap_cons, rest]
      by_cases named : id ∈ chunk
      · have elsewhere : id ∉ pieces.flatten := fun again =>
          (List.nodup_append.mp distinct).2.2 id named id again rfl
        rw [if_pos named, if_neg elsewhere, List.append_nil, List.flatten_cons,
          if_pos (List.mem_append_left _ named)]
      · simp [named]

/-- The batch query returns the entities of each memory, whatever the chunks. -/
theorem hydrateEntitiesBatch_apply {memoryIds : List MemoryId} (distinct : memoryIds.Nodup)
    {id : MemoryId} (named : id ∈ memoryIds) :
    db.hydrateEntitiesBatch memoryIds id = Groups.entry (db.entitiesOf id) := by
  have whole : (chunks entityBatchChunkSize memoryIds).flatten = memoryIds :=
    flatten_chunks (by decide) memoryIds
  have rows : ((db.hydrateEntitiesBatch memoryIds) id).getD [] = db.entitiesOf id := by
    rw [Db.hydrateEntitiesBatch, getD_hydrateChunks,
      flatMap_of_nodup (whole.symm ▸ distinct), whole, if_pos named]
    rfl
  rw [(noneEmpty_hydrateEntitiesBatch memoryIds).eq_entry id, rows]

end Batch

section Rows

variable {α : Type} {db : Db} {key : α → MemoryId} {give : α → List Entity → α}

/-- Rows of distinct memories each find their own entry. -/
theorem takeEntities_eq (map : EntityMap) {rows : List α} (distinct : (rows.map key).Nodup) :
    takeEntities key give map rows =
      rows.map fun row => ((map (key row)).map (give row)).getD row := by
  induction rows generalizing map with
  | nil => rfl
  | cons row rows inductionHypothesis =>
      obtain ⟨unseen, rest⟩ := List.nodup_cons.mp distinct
      rw [takeEntities, List.map_cons]
      cases found : map (key row) with
      | none =>
          dsimp only
          rw [inductionHypothesis map rest]
          rfl
      | some entities =>
          dsimp only
          rw [inductionHypothesis _ rest]
          congr 1
          refine List.map_congr_left fun other otherMem => ?_
          have differs : key other ≠ key row := fun same =>
            unseen (same ▸ List.mem_map_of_mem otherMem)
          rw [Groups.remove_of_ne differs]

/-- Hydration gives every row the entities of its memory. -/
theorem Db.hydrateRows_eq {rows : List α} (distinct : (rows.map key).Nodup)
    (bare : ∀ row ∈ rows, give row [] = row) :
    db.hydrateRows key give rows = rows.map fun row => give row (db.entitiesOf (key row)) := by
  rw [Db.hydrateRows]
  split
  case isTrue empty =>
    rw [List.isEmpty_iff.mp empty]
    rfl
  case isFalse =>
    rw [takeEntities_eq _ distinct]
    refine List.map_congr_left fun row rowMem => ?_
    rw [hydrateEntitiesBatch_apply distinct (List.mem_map_of_mem rowMem)]
    cases entities : db.entitiesOf (key row) with
    | nil => exact (bare row rowMem).symm
    | cons => rfl

end Rows

end LocalHold
