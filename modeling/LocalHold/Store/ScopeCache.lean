import LocalHold.Store.ContextRuns

/-!
# Copies of the primary context key

The key of a memory's primary context, or the reserved key for none, is copied
into the provenance of the memory and into its metadata.  A statement touches
the copies of some memories and leaves those of the others; the writers restore
the copies of the memory they touch before they commit.
-/

namespace LocalHold

open Relational Transition Transition.Txn

/-! ## Copies and their origin -/

/-- The copies of a memory's scope, where there is a memory and where there is
metadata, the key they should hold and the ordinals of the memberships. -/
structure ScopeView where
  conversation : Option (Option String)
  metadataScope : Option (Option String)
  key : String
  ordinals : List Nat
deriving DecidableEq

/-- The memberships of one memory. -/
def Db.membershipsOf (db : Db) (id : MemoryId) : List MembershipRow :=
  db.memoryContexts.select fun row => decide (row.memoryId = id)

/-- The scope of a memory as the store holds it. -/
def Db.scopeView (db : Db) (id : MemoryId) : ScopeView where
  conversation := (db.memories.find? id).map (·.provenance.sourceConversation)
  metadataScope := (db.metadata.find? id).map (·.metadata.scopeKey)
  key := db.compatibilityScopeKey id
  ordinals := (db.membershipsOf id).map (·.ordinal)

/-- The provenance copy is the key, and so is the metadata copy when it is set;
the memberships are numbered from zero. -/
structure ScopeView.Cached (view : ScopeView) : Prop where
  conversation : ∀ stored, view.conversation = some stored → stored = some view.key
  metadataScope : ∀ stored, view.metadataScope = some (some stored) → stored = view.key
  ordinals : view.ordinals = List.range view.ordinals.length

/-- Memberships and metadata belong to stored memories, and memberships name
stored contexts. -/
structure Db.Anchored (db : Db) : Prop where
  memberships : ∀ row ∈ db.memoryContexts,
    db.memories.contains row.memoryId = true ∧ db.contexts.contains row.contextId = true
  metadata : ∀ id, db.metadata.contains id = true → db.memories.contains id = true

/-- Every memory's copies hold the key of its primary context. -/
structure Db.ScopesCached (db : Db) : Prop where
  anchored : db.Anchored
  cached : ∀ id, (db.scopeView id).Cached

theorem Db.compatibilityScopeKey_eq (db : Db) (id : MemoryId) :
    db.compatibilityScopeKey id =
      ((((db.membershipsOf id).find? fun row => decide (row.ordinal = 0)).bind fun row =>
        db.contexts.find? row.contextId).map (·.context.key)).getD unresolvedContextKey := by
  simp only [Db.compatibilityScopeKey, Db.membershipsOf, Table.select, List.find?_filter]
  congr 4
  funext row
  simp

/-- The key of a memory depends on its memberships and on the contexts. -/
theorem Db.compatibilityScopeKey_congr {db next : Db} {id : MemoryId}
    (memberships : next.membershipsOf id = db.membershipsOf id)
    (contexts : next.contexts = db.contexts) :
    next.compatibilityScopeKey id = db.compatibilityScopeKey id := by
  rw [Db.compatibilityScopeKey_eq, Db.compatibilityScopeKey_eq, memberships, contexts]

/-! ## Touched memories -/

/-- Between two states only the copies of some memories may change. -/
def ScopeTouches (touched : MemoryId → Prop) (db next : Db) : Prop :=
  db.Anchored → next.Anchored ∧ ∀ id, ¬touched id → next.scopeView id = db.scopeView id

/-- A transaction that leaves the scopes of all memories. -/
abbrev KeepsScopes {α : Type} (body : StoreM α) : Prop :=
  Within (ScopeTouches fun _ => False) body

/-- A transaction that touches the scope of one memory. -/
abbrev TouchesScope {α : Type} (id : MemoryId) (body : StoreM α) : Prop :=
  Within (ScopeTouches fun other => other = id) body

/-- The copies are right afterwards if they were before. -/
def ScopeSafe (db next : Db) : Prop :=
  db.ScopesCached → next.ScopesCached

instance (touched : MemoryId → Prop) : Std.Refl (ScopeTouches touched) :=
  ⟨fun _ anchored => ⟨anchored, fun _ _ => rfl⟩⟩

instance (touched : MemoryId → Prop) : IsTrans Db (ScopeTouches touched) :=
  ⟨fun _ _ _ early late anchored => by
    obtain ⟨middleAnchored, earlyViews⟩ := early anchored
    obtain ⟨lastAnchored, lateViews⟩ := late middleAnchored
    exact ⟨lastAnchored, fun id untouched =>
      (lateViews id untouched).trans (earlyViews id untouched)⟩⟩

instance : Std.Refl ScopeSafe :=
  ⟨fun _ cached => cached⟩

instance : IsTrans Db ScopeSafe :=
  ⟨fun _ _ _ early late cached => late (early cached)⟩

section Touching

variable {db next : Db} {touched : MemoryId → Prop}

theorem ScopeTouches.weaken (touches : ScopeTouches (fun _ => False) db next) :
    ScopeTouches touched db next := by
  intro anchored
  obtain ⟨nextAnchored, views⟩ := touches anchored
  exact ⟨nextAnchored, fun id _ => views id not_false⟩

theorem KeepsScopes.touches {α : Type} {body : StoreM α} (inner : KeepsScopes body)
    {id : MemoryId} : TouchesScope id body :=
  inner.mono fun _ _ touches => touches.weaken

theorem ScopeTouches.safe_of_kept (kept : ScopeTouches (fun _ => False) db next) :
    ScopeSafe db next := by
  intro cached
  obtain ⟨anchored, views⟩ := kept cached.anchored
  refine ⟨anchored, fun id => ?_⟩
  rw [views id not_false]
  exact cached.cached id

theorem KeepsScopes.safe {α : Type} {body : StoreM α} (inner : KeepsScopes body) :
    Within ScopeSafe body :=
  inner.mono fun _ _ kept => kept.safe_of_kept

/-- Touching one memory is safe when its copies are right in the end. -/
theorem ScopeTouches.safe {id : MemoryId} (touches : ScopeTouches (fun other => other = id) db next)
    (restored : db.ScopesCached → (next.scopeView id).Cached) : ScopeSafe db next := by
  intro cached
  obtain ⟨anchored, views⟩ := touches cached.anchored
  refine ⟨anchored, fun other => ?_⟩
  by_cases same : other = id
  · rw [same]
    exact restored cached
  · rw [views other same]
    exact cached.cached other

/-- The tables that hold the copies and the keys. -/
def Db.scopeTables (db : Db) :=
  (db.memories, db.metadata, db.memoryContexts, db.contexts)

theorem ScopeTouches.of_tables (same : next.scopeTables = db.scopeTables) :
    ScopeTouches touched db next := by
  simp only [Db.scopeTables, Prod.mk.injEq] at same
  obtain ⟨memories, metadata, memberships, contexts⟩ := same
  intro anchored
  refine ⟨⟨?_, ?_⟩, fun id _ => ?_⟩
  · rw [memories, memberships, contexts]
    exact anchored.memberships
  · rw [memories, metadata]
    exact anchored.metadata
  · have rows : next.membershipsOf id = db.membershipsOf id := by
      rw [Db.membershipsOf, Db.membershipsOf, memberships]
    rw [Db.scopeView, Db.scopeView, memories, metadata, rows,
      Db.compatibilityScopeKey_congr rows contexts]

theorem keepsScopes_of_tables {α : Type} {body : StoreM α}
    (inner : Within (Keeps Db.scopeTables) body) : KeepsScopes body :=
  inner.mono fun _ _ same => ScopeTouches.of_tables same

/-- Rewriting rows of memories touches those whose conversation changes. -/
theorem ScopeTouches.of_updateWhere {hit : MemoryRow → Bool} {change : MemoryRow → MemoryRow}
    {keepsKey : ∀ row, (change row).id = row.id}
    (kept : ∀ row, ¬touched row.id → hit row = true →
      (change row).provenance.sourceConversation = row.provenance.sourceConversation) :
    ScopeTouches touched db
      { db with memories := db.memories.updateWhere hit change keepsKey } := by
  intro anchored
  refine ⟨⟨?_, ?_⟩, fun id untouched => ?_⟩
  · intro row rowMem
    simp only [Table.contains_updateWhere]
    exact anchored.memberships row rowMem
  · intro id present
    simp only [Table.contains_updateWhere]
    exact anchored.metadata id present
  · have conversation :
        ((db.memories.updateWhere hit change keepsKey).find? id).map
            (·.provenance.sourceConversation) =
          (db.memories.find? id).map (·.provenance.sourceConversation) := by
      rw [Table.find?_updateWhere, Option.map_map]
      cases found : db.memories.find? id with
      | none => rfl
      | some row =>
          simp only [Option.map_some, Function.comp_apply]
          split
          · rename_i hits
            rw [kept row (by rw [Table.find?_key found]; exact untouched) hits]
          · rfl
    simp only [Db.scopeView, conversation]
    rfl

/-- Rewriting memberships touches the memories whose memberships change. -/
theorem ScopeTouches.of_memberships {memberships : Table fun row : MembershipRow =>
      (row.memoryId, row.contextId)}
    (stored : ∀ row ∈ memberships, row ∈ db.memoryContexts ∨
      (db.memories.contains row.memoryId = true ∧ db.contexts.contains row.contextId = true))
    (kept : ∀ id, ¬touched id → (memberships.select fun row => decide (row.memoryId = id)) =
      db.membershipsOf id) :
    ScopeTouches touched db { db with memoryContexts := memberships } := by
  intro anchored
  refine ⟨⟨?_, anchored.metadata⟩, fun id untouched => ?_⟩
  · intro row rowMem
    rcases stored row rowMem with older | newer
    · exact anchored.memberships row older
    · exact newer
  · have rows : Db.membershipsOf { db with memoryContexts := memberships } id =
        db.membershipsOf id := kept id untouched
    rw [Db.scopeView, Db.scopeView, rows, Db.compatibilityScopeKey_congr rows rfl]

/-- Rewriting metadata touches the memories whose metadata scope changes. -/
theorem ScopeTouches.of_metadata {metadata : Table fun row : MetadataRow => row.metadata.memoryId}
    (stored : ∀ id, metadata.contains id = true → db.metadata.contains id = true ∨
      db.memories.contains id = true)
    (kept : ∀ id, ¬touched id → metadata.find? id = db.metadata.find? id) :
    ScopeTouches touched db { db with metadata := metadata } := by
  intro anchored
  refine ⟨⟨anchored.memberships, ?_⟩, fun id untouched => ?_⟩
  · intro id present
    rcases stored id present with older | newer
    · exact anchored.metadata id older
    · exact newer
  · simp only [Db.scopeView, kept id untouched]
    rfl

end Touching

/-! ## Statements -/

theorem touchesScope_updateMemoryWhere (id : MemoryId) (guard : MemoryRow → Bool)
    (change : MemoryRow → MemoryRow) (keepsKey : ∀ row, (change row).id = row.id) :
    TouchesScope id (updateMemoryWhere id guard change keepsKey) := by
  refine Within.bind Within.reads fun _ => ?_
  refine Within.bind (Within.writes fun db => ScopeTouches.of_updateWhere ?_) fun _ => Within.pure
  intro row untouched hits
  rw [Bool.and_eq_true, decide_eq_true_eq] at hits
  exact absurd hits.1 untouched

theorem keepsScopes_updateMemoryWhere {id : MemoryId} {guard : MemoryRow → Bool}
    {change : MemoryRow → MemoryRow} {keepsKey : ∀ row, (change row).id = row.id}
    (kept : ∀ row, (change row).provenance = row.provenance) :
    KeepsScopes (updateMemoryWhere id guard change keepsKey) := by
  refine Within.bind Within.reads fun _ => ?_
  refine Within.bind (Within.writes fun db => ScopeTouches.of_updateWhere ?_) fun _ => Within.pure
  intro row _ _
  rw [kept]

theorem keepsScopes_updateMemory {id : MemoryId} {change : MemoryRow → MemoryRow}
    {keepsKey : ∀ row, (change row).id = row.id}
    (kept : ∀ row, (change row).provenance = row.provenance) :
    KeepsScopes (updateMemory id change keepsKey) :=
  keepsScopes_updateMemoryWhere kept

theorem keepsScopes_insertAuditDraft (id : MemoryId) (audit : AuditDraft) :
    KeepsScopes (insertAuditDraft id audit) :=
  keepsScopes_of_tables (Within.writes fun _ => rfl)

theorem keepsScopes_insertContextAudit (audit : ContextAuditDraft) (contextId : Option ContextId)
    (memoryId : Option MemoryId) (now : Instant) :
    KeepsScopes (insertContextAudit audit contextId memoryId now) :=
  keepsScopes_of_tables (Within.writes fun _ => rfl)

theorem keepsScopes_deleteEmbeddingMapRow (id : MemoryId) :
    KeepsScopes (deleteEmbeddingMapRow id) := by
  refine keepsScopes_of_tables (Within.writes fun db => ?_)
  unfold Db.dropEmbedding
  split <;> rfl

theorem keepsScopes_vectorUpsert (dimensions : Nat) (id : MemoryId) (embedding : Embedding) :
    KeepsScopes (vectorUpsert dimensions id embedding) := by
  apply keepsScopes_of_tables
  intro db value next ran
  have memories := keepsMemorySide_vectorUpsert dimensions id embedding ran
  have contexts := (quiet_vectorUpsert dimensions id embedding).leavesLinks.leavesContexts ran
  simp only [Keeps, Db.memorySide, Db.contextTables, Prod.mk.injEq] at memories contexts
  simp only [Keeps, Db.scopeTables, Prod.mk.injEq]
  exact ⟨memories.1, memories.2.2.1, memories.2.2.2.1, contexts.1⟩

theorem keepsScopes_replaceEntities (id : MemoryId) (entities : List Entity) :
    KeepsScopes (replaceEntities id entities) := by
  refine keepsScopes_of_tables (Within.bind (Within.writes fun _ => rfl) fun _ => ?_)
  refine Within.forM fun _ _ => Within.bind Within.reads fun _ => ?_
  exact Within.bind Within.require fun _ => Within.writes fun _ => rfl

theorem keepsScopes_insertEntities (id : MemoryId) (entities : List Entity) :
    KeepsScopes (insertEntities id entities) := by
  refine keepsScopes_of_tables (Within.forM fun _ _ => Within.bind Within.reads fun _ => ?_)
  exact Within.bind Within.require fun _ => Within.writes fun _ => rfl

theorem keepsScopes_incrementRecordRevision (id : MemoryId) (action : String) :
    KeepsScopes (incrementRecordRevision id action) :=
  Within.bind (keepsScopes_updateMemory fun _ => rfl) fun _ => Within.require

theorem touchesScope_deleteMembershipRows (id : MemoryId) :
    TouchesScope id (deleteMembershipRows id) := by
  refine Within.writes fun db => ScopeTouches.of_memberships ?_ ?_
  · intro row rowMem
    exact Or.inl (Table.mem_deleteWhere_iff.mp rowMem).1
  · intro other untouched
    apply Table.select_deleteWhere_of_disjoint
    intro row kept
    rw [decide_eq_true_eq] at kept
    simpa [kept] using untouched

theorem touchesScope_insertMembershipRows (id : MemoryId) (contextIds : List ContextId)
    (now : Instant) : TouchesScope id (insertMembershipRows id contextIds now) := by
  apply Within.forM
  intro entry _ db value next ran
  have ran := of_reads_bind ran
  obtain ⟨parents, ran⟩ := of_require_bind ran
  have ran := of_reads_bind ran
  obtain ⟨_, ran⟩ := of_require_bind ran
  have ran := of_reads_bind ran
  obtain ⟨memberships, inserted, written⟩ := of_expect_bind ran
  cases writes_eq_ok.mp written
  rw [Bool.and_eq_true] at parents
  apply ScopeTouches.of_memberships
  · intro row rowMem
    rcases (Table.mem_insert?_iff inserted).mp rowMem with older | rfl
    · exact Or.inl older
    · exact Or.inr parents
  · intro other untouched
    have outside : decide (id = other) = false := by
      simpa using fun equal => untouched (Eq.symm equal)
    rw [Table.select_insert? inserted]
    simp [outside, Db.membershipsOf]

theorem touchesScope_upsertMetadata (metadata : MemoryMetadata) (now : Instant) :
    TouchesScope metadata.memoryId (upsertMetadata metadata now) := by
  intro db value next ran
  have ran := of_reads_bind ran
  obtain ⟨parent, written⟩ := of_require_bind ran
  cases writes_eq_ok.mp written
  apply ScopeTouches.of_metadata
  · intro id present
    rw [Table.contains, Table.find?_upsert] at present
    split at present
    · rename_i here
      rw [here]
      exact Or.inr parent
    · exact Or.inl present
  · intro id untouched
    rw [Table.find?_upsert, if_neg untouched]

theorem touchesScope_setMetadataScope (id : MemoryId) (scope : String) (now : Instant) :
    TouchesScope id (setMetadataScope id scope now) := by
  refine Within.writes fun db => ScopeTouches.of_metadata ?_ ?_
  · intro other present
    refine Or.inl ?_
    rw [Table.update, Table.contains_updateWhere] at present
    exact present
  · intro other untouched
    rw [Table.find?_update, if_neg untouched]

end LocalHold
