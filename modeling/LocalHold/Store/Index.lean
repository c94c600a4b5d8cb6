import LocalHold.Store.DeletionRules

/-!
# The vector index

The representation of the vector index: a flag on each memory row, a map table
and the vector table.  A state is well formed when the three agree.  The view of
a memory as its embedding sees it, and the relations that bound what a command
may do to such views, are stated for well-formed states; inside a transaction
one memory at a time may disagree.
-/

namespace LocalHold

open Relational Transition Transition.Txn

/-! ## Representation -/

/-- The map table joins memories and vectors one to one, and covers every
vector. -/
structure MapOk (db : Db) : Prop where
  mapped : ∀ mapping ∈ db.embeddingMap, db.memories.contains mapping.memoryId = true ∧
    db.embeddings.contains mapping.vecRowid = true
  named : ∀ vector ∈ db.embeddings, ∃ mapping ∈ db.embeddingMap, mapping.vecRowid = vector.rowid
  unshared : ∀ first ∈ db.embeddingMap, ∀ second ∈ db.embeddingMap,
    first.vecRowid = second.vecRowid → first = second

/-- The flag of a memory says whether it has a map row. -/
def FlagOk (db : Db) (id : MemoryId) : Prop :=
  ∀ row, db.memories.find? id = some row →
    (row.hasEmbedding = 1 ↔ db.embeddingMap.contains id = true)

/-- The vector index is well formed. -/
structure IndexOk (db : Db) : Prop extends MapOk db where
  flagged : ∀ id, FlagOk db id

/-- The vector the map names for a memory. -/
def Db.vectorOf (db : Db) (id : MemoryId) : Option Embedding :=
  (db.embeddingMap.find? id).bind fun mapping =>
    (db.embeddings.find? mapping.vecRowid).map (·.embedding)

/-- A memory as its embedding sees it, with the profile the database records. -/
structure EmbeddingView where
  content : String
  embeddingRevision : Int
  vector : Option Embedding
  profile : Option EmbeddingProfile
deriving DecidableEq

/-- The columns of a memory row that the index depends on. -/
structure IndexedColumns where
  id : MemoryId
  content : String
  hasEmbedding : Int
  embeddingRevision : Int
deriving DecidableEq

/-- The index columns of a row. -/
def MemoryRow.indexedColumns (row : MemoryRow) : IndexedColumns :=
  ⟨row.id, row.content, row.hasEmbedding, row.embeddingRevision⟩

/-- The index columns of a stored memory. -/
def Db.indexed (db : Db) (id : MemoryId) : Option IndexedColumns :=
  (db.memories.find? id).map MemoryRow.indexedColumns

/-- The embedding view of a stored memory; a row without flag has no vector. -/
def Db.embeddingView (db : Db) (id : MemoryId) : Option EmbeddingView :=
  (db.indexed id).map fun columns =>
    { content := columns.content
      embeddingRevision := columns.embeddingRevision
      vector := if columns.hasEmbedding = (1 : Int) then db.vectorOf id else none
      profile := db.embeddingProfile }

theorem Db.indexed_eq_none_iff {db : Db} {id : MemoryId} :
    db.indexed id = none ↔ db.memories.contains id = false := by
  simp [Db.indexed, Table.contains]

theorem Db.embeddingView_eq_none_iff {db : Db} {id : MemoryId} :
    db.embeddingView id = none ↔ db.indexed id = none := by
  simp [Db.embeddingView]

theorem Db.vectorOf_eq_none {db : Db} {id : MemoryId}
    (unmapped : db.embeddingMap.contains id = false) : db.vectorOf id = none := by
  have absent : db.embeddingMap.find? id = none := by simpa [Table.contains] using unmapped
  simp [Db.vectorOf, absent]

theorem MapOk.exists_vectorOf {db : Db} {id : MemoryId} (mapOk : MapOk db)
    (mapped : db.embeddingMap.contains id = true) : ∃ embedding, db.vectorOf id = some embedding := by
  obtain ⟨mapping, found⟩ := Option.isSome_iff_exists.mp mapped
  obtain ⟨vector, vectorFound⟩ := Option.isSome_iff_exists.mp
    (mapOk.mapped mapping (Table.mem_of_find? found)).2
  exact ⟨vector.embedding, by simp [Db.vectorOf, found, vectorFound]⟩

theorem FlagOk.of_indexed {before after : Db} {id : MemoryId}
    (indexed : after.indexed id = before.indexed id)
    (mapped : after.embeddingMap.contains id = before.embeddingMap.contains id)
    (flagOk : FlagOk before id) : FlagOk after id := by
  intro row found
  have afterColumns : after.indexed id = some row.indexedColumns := by simp [Db.indexed, found]
  rw [indexed] at afterColumns
  obtain ⟨old, oldFound, columnsEq⟩ := Option.map_eq_some_iff.mp afterColumns
  have sameFlag : old.hasEmbedding = row.hasEmbedding :=
    congrArg IndexedColumns.hasEmbedding columnsEq
  rw [mapped, ← sameFlag]
  exact flagOk old oldFound

/-! ## Relations between states -/

/-- The embedding revision never falls, rises when the content changes, and a
vector is either the one that was there, with nothing else changed, or written. -/
structure Evolved (written : EmbeddingView → Prop) (old new : EmbeddingView) : Prop where
  monotone : old.embeddingRevision ≤ new.embeddingRevision
  bumped : new.content = old.content ∨ old.embeddingRevision < new.embeddingRevision
  vector : new.vector = none ∨ new = old ∨ written new

theorem Evolved.refl (written : EmbeddingView → Prop) (view : EmbeddingView) :
    Evolved written view view :=
  ⟨le_refl _, Or.inl rfl, Or.inr (Or.inl rfl)⟩

theorem Evolved.trans {written : EmbeddingView → Prop} {first second third : EmbeddingView}
    (early : Evolved written first second) (late : Evolved written second third) :
    Evolved written first third where
  monotone := le_trans early.monotone late.monotone
  bumped := by
    have earlyRise := early.monotone
    have lateRise := late.monotone
    rcases early.bumped with same | rose
    · rcases late.bumped with lateSame | lateRose
      · exact Or.inl (lateSame.trans same)
      · exact Or.inr (lt_of_le_of_lt earlyRise lateRose)
    · exact Or.inr (lt_of_lt_of_le rose lateRise)
  vector := by
    rcases late.vector with absent | same | wrote
    · exact Or.inl absent
    · subst same
      exact early.vector
    · exact Or.inr (Or.inr wrote)

/-- How one memory fares: it evolves, or it is new and its vector was written. -/
structure Evolves (written : MemoryId → EmbeddingView → Prop) (id : MemoryId)
    (before after : Db) : Prop where
  kept : ∀ old new, before.embeddingView id = some old → after.embeddingView id = some new →
    Evolved (written id) old new
  fresh : ∀ new, before.embeddingView id = none → after.embeddingView id = some new →
    new.vector = none ∨ written id new

theorem Evolves.of_eq {written : MemoryId → EmbeddingView → Prop} {id : MemoryId}
    {before after : Db} (same : after.embeddingView id = before.embeddingView id) :
    Evolves written id before after where
  kept old new oldView newView := by
    rw [same, oldView] at newView
    cases newView
    exact Evolved.refl _ _
  fresh new oldView newView := by
    rw [same, oldView] at newView
    cases newView

/-- A command keeps the index well formed and every memory evolves. -/
def Sustains (written : MemoryId → EmbeddingView → Prop) (before after : Db) : Prop :=
  IndexOk before → IndexOk after ∧ ∀ id, Evolves written id before after

/-- As `Sustains`, for a transaction that deletes no memory. -/
def Growing (written : MemoryId → EmbeddingView → Prop) (before after : Db) : Prop :=
  IndexOk before → IndexOk after ∧ ∀ id, Evolves written id before after ∧
    (before.embeddingView id ≠ none → after.embeddingView id ≠ none)

/-- The index stays well formed and memories only disappear. -/
def Shrinking (before after : Db) : Prop :=
  IndexOk before → IndexOk after ∧
    ∀ id, after.embeddingView id = none ∨ after.embeddingView id = before.embeddingView id

theorem Growing.sustains {written : MemoryId → EmbeddingView → Prop} {before after : Db}
    (growing : Growing written before after) : Sustains written before after :=
  fun indexOk => ⟨(growing indexOk).1, fun id => ((growing indexOk).2 id).1⟩

theorem Shrinking.sustains {written : MemoryId → EmbeddingView → Prop} {before after : Db}
    (shrinking : Shrinking before after) : Sustains written before after := by
  intro indexOk
  refine ⟨(shrinking indexOk).1, fun id => ?_⟩
  rcases (shrinking indexOk).2 id with gone | same
  · exact
      { kept := by intro old new _ newView; rw [gone] at newView; cases newView
        fresh := by intro new _ newView; rw [gone] at newView; cases newView }
  · exact Evolves.of_eq same

instance (written : MemoryId → EmbeddingView → Prop) : Std.Refl (Growing written) :=
  ⟨fun _ indexOk => ⟨indexOk, fun _ => ⟨Evolves.of_eq rfl, fun present => present⟩⟩⟩

instance (written : MemoryId → EmbeddingView → Prop) : IsTrans Db (Growing written) :=
  ⟨fun first second third early late indexOk => by
    obtain ⟨middleOk, earlyEvolves⟩ := early indexOk
    obtain ⟨finalOk, lateEvolves⟩ := late middleOk
    refine ⟨finalOk, fun id => ⟨?_, fun present =>
      (lateEvolves id).2 ((earlyEvolves id).2 present)⟩⟩
    constructor
    · intro old new oldView newView
      have present := (earlyEvolves id).2 (by simp [oldView])
      obtain ⟨middle, middleView⟩ := Option.ne_none_iff_exists'.mp present
      exact ((earlyEvolves id).1.kept old middle oldView middleView).trans
        ((lateEvolves id).1.kept middle new middleView newView)
    · intro new oldView newView
      cases middleView : second.embeddingView id with
      | none => exact (lateEvolves id).1.fresh new middleView newView
      | some middle =>
          rcases ((lateEvolves id).1.kept middle new middleView newView).vector with
            absent | same | wrote
          · exact Or.inl absent
          · subst same
            exact (earlyEvolves id).1.fresh new oldView middleView
          · exact Or.inr wrote⟩

instance : Std.Refl Shrinking :=
  ⟨fun _ indexOk => ⟨indexOk, fun _ => Or.inr rfl⟩⟩

instance : IsTrans Db Shrinking :=
  ⟨fun first second third early late indexOk => by
    obtain ⟨middleOk, earlyShrinks⟩ := early indexOk
    obtain ⟨finalOk, lateShrinks⟩ := late middleOk
    refine ⟨finalOk, fun id => ?_⟩
    rcases lateShrinks id with gone | same
    · exact Or.inl gone
    · rw [same]
      exact earlyShrinks id⟩

/-! ## Transactions that leave the index alone -/

/-- The part of the database that the index is read from. -/
def Db.indexSide (db : Db) :=
  (db.memories.rows.map MemoryRow.indexedColumns, db.embeddingMap, db.embeddings,
    db.embeddingProfile)

/-- A transaction that leaves the index and the recorded profile unchanged. -/
abbrev KeepsIndex {α : Type} (body : StoreM α) : Prop :=
  Within (Keeps Db.indexSide) body

theorem Db.indexed_eq_find? (db : Db) (id : MemoryId) :
    db.indexed id =
      (db.memories.rows.map MemoryRow.indexedColumns).find? fun columns => columns.id = id := by
  rw [List.find?_map]
  rfl

theorem Db.indexed_eq_of_indexSide {before after : Db} (same : after.indexSide = before.indexSide)
    (id : MemoryId) : after.indexed id = before.indexed id := by
  simp only [Db.indexSide, Prod.mk.injEq] at same
  rw [Db.indexed_eq_find?, Db.indexed_eq_find?, same.1]

theorem Db.contains_eq_of_indexed {before after : Db} {id : MemoryId}
    (same : after.indexed id = before.indexed id) :
    after.memories.contains id = before.memories.contains id := by
  have isSome : (after.indexed id).isSome = (before.indexed id).isSome := by rw [same]
  simpa [Db.indexed, Table.contains] using isSome

theorem Db.embeddingView_eq_of_indexSide {before after : Db}
    (same : after.indexSide = before.indexSide) (id : MemoryId) :
    after.embeddingView id = before.embeddingView id := by
  have indexed := Db.indexed_eq_of_indexSide same id
  simp only [Db.indexSide, Prod.mk.injEq] at same
  obtain ⟨_, map, vectors, profile⟩ := same
  simp only [Db.embeddingView, Db.vectorOf, indexed, map, vectors, profile]

theorem MapOk.of_indexSide {before after : Db} (same : after.indexSide = before.indexSide)
    (mapOk : MapOk before) : MapOk after := by
  have contains : ∀ id, after.memories.contains id = before.memories.contains id :=
    fun id => Db.contains_eq_of_indexed (Db.indexed_eq_of_indexSide same id)
  simp only [Db.indexSide, Prod.mk.injEq] at same
  obtain ⟨_, map, vectors, _⟩ := same
  refine ⟨?_, ?_, ?_⟩
  · intro mapping mappingMem
    rw [contains, vectors]
    exact mapOk.mapped mapping (map ▸ mappingMem)
  · intro vector vectorMem
    rw [map]
    exact mapOk.named vector (vectors ▸ vectorMem)
  · intro first firstMem second secondMem
    exact mapOk.unshared first (map ▸ firstMem) second (map ▸ secondMem)

theorem IndexOk.of_indexSide {before after : Db} (same : after.indexSide = before.indexSide)
    (indexOk : IndexOk before) : IndexOk after where
  toMapOk := indexOk.toMapOk.of_indexSide same
  flagged id := by
    have map : after.embeddingMap = before.embeddingMap := by
      simp only [Db.indexSide, Prod.mk.injEq] at same
      exact same.2.1
    exact (indexOk.flagged id).of_indexed (Db.indexed_eq_of_indexSide same id) (by rw [map])

section Rules

variable {α : Type} {written : MemoryId → EmbeddingView → Prop}

theorem Growing.of_indexSide {before after : Db} (same : after.indexSide = before.indexSide) :
    Growing written before after := by
  intro indexOk
  refine ⟨indexOk.of_indexSide same, fun id => ?_⟩
  rw [Db.embeddingView_eq_of_indexSide same id]
  exact ⟨Evolves.of_eq (Db.embeddingView_eq_of_indexSide same id), fun present => present⟩

theorem withinGrowing_of_keepsIndex {body : StoreM α} (inner : KeepsIndex body) :
    Within (Growing written) body :=
  inner.mono fun _ _ same => Growing.of_indexSide same

theorem withinShrinking_of_keepsIndex {body : StoreM α} (inner : KeepsIndex body) :
    Within Shrinking body :=
  inner.mono fun _ _ same indexOk =>
    ⟨indexOk.of_indexSide same, fun id => Or.inr (Db.embeddingView_eq_of_indexSide same id)⟩

theorem keepsIndex_of_leavesMemories {body : StoreM α} (inner : LeavesMemories body) :
    KeepsIndex body :=
  inner.mono fun state next same => by
    simp only [Keeps, Db.memoryTables, Prod.mk.injEq] at same
    obtain ⟨memories, _, _, _, _, map, vectors, _, _, profile⟩ := same
    simp only [Keeps, Db.indexSide, memories, map, vectors, profile]

end Rules

end LocalHold
