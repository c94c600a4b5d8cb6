import LocalHold.Engine.Work
import LocalHold.Store.Optimistic

/-!
# Freshness of vectors

A worker's content and revision form a snapshot.  Once they do, a content
change raises the revision and the write-back is refused, so a stored vector
always belongs to the content of its row.  Every way to obtain work reads the
two in one transaction except `get_for_reembed`, which reads them in two
statements.  Freshness holds in every run in which no content change tears that
read apart, and fails once one does.
-/

namespace LocalHold

open Relational Transition Transition.Txn

/-! ## Snapshots -/

/-- A unit of work is a snapshot: at its revision the memory holds its content.
The revision may have been passed, and the memory may be gone for good. -/
def WorkFresh (db : Db) (work : EmbedWork) : Prop :=
  (db.indexed work.id = none ∧ db.tombstones.contains work.id = true) ∨
    ∃ columns, db.indexed work.id = some columns ∧
      work.expectedRevision ≤ columns.embeddingRevision ∧
      (columns.embeddingRevision = work.expectedRevision → columns.content = work.content)

/-- Work in flight carries snapshots, and computed vectors belong to them. -/
def TaskFresh (db : Db) : EmbedTask → Prop
  | .contentRead _ _ _ => True
  | .queued _ work => WorkFresh db work
  | .computed _ work embedding => WorkFresh db work ∧ embedding.source = work.content

/-- Every stored vector belongs to the content of its row. -/
abbrev VectorsFresh (db : Db) : Prop :=
  VectorsMeet (fun view embedding => embedding.source = view.content) db

/-- Every flagged memory has a vector, computed from the content it holds. -/
def EmbeddingsFresh (db : Db) : Prop :=
  ∀ row ∈ db.memories, row.hasEmbedding = 1 →
    ∃ embedding, db.vectorOf row.id = some embedding ∧ embedding.source = row.content

theorem Holds.workFresh {db : Db} {work : EmbedWork}
    (holds : Holds work.id work.content work.expectedRevision db) : WorkFresh db work := by
  obtain ⟨columns, indexed, contentEq, revisionEq⟩ := holds
  exact Or.inr ⟨columns, indexed, le_of_eq revisionEq.symm, fun _ => contentEq⟩

theorem Db.embeddingView_of_indexed {db : Db} {id : MemoryId} {columns : IndexedColumns}
    (indexed : db.indexed id = some columns) :
    ∃ view, db.embeddingView id = some view ∧ view.content = columns.content ∧
      view.embeddingRevision = columns.embeddingRevision := by
  simp [Db.embeddingView, indexed]

theorem Db.indexed_of_embeddingView {db : Db} {id : MemoryId} {view : EmbeddingView}
    (viewEq : db.embeddingView id = some view) :
    ∃ columns, db.indexed id = some columns ∧ columns.content = view.content ∧
      columns.embeddingRevision = view.embeddingRevision := by
  obtain ⟨columns, indexed, rfl⟩ := Option.map_eq_some_iff.mp viewEq
  exact ⟨columns, indexed, rfl, rfl⟩

section Steps

variable [Host] {db next : Db}

/-- A snapshot stays one under every store call. -/
theorem WorkFresh.storeStep {call : StoreCall} {work : EmbedWork} (indexOk : IndexOk db)
    (stepEq : storeStep db call = some next) (fresh : WorkFresh db work) :
    WorkFresh next work := by
  have related := storeStep_sound stepEq work.id
  have evolves := (storeStep_sustains stepEq indexOk).2 work.id
  rcases fresh with ⟨absent, tombstoned⟩ | ⟨columns, indexed, passed, snapshot⟩
  · refine Or.inl ⟨?_, related.tombstone tombstoned⟩
    by_contra present
    have missing : db.view work.id = none := by
      rw [Db.view_eq_none_iff]
      simpa [Db.indexed] using absent
    have appears : next.view work.id ≠ none := by
      rw [Ne, Db.view_eq_none_iff]
      simpa [Db.indexed] using present
    rw [related.fresh missing appears] at tombstoned
    cases tombstoned
  · cases newIndexed : next.indexed work.id with
    | none =>
        refine Or.inl ⟨newIndexed, related.gone ?_ ?_⟩
        · rw [Ne, Db.view_eq_none_iff]
          intro missing
          simp [Db.indexed, missing] at indexed
        · rw [Db.view_eq_none_iff]
          simpa [Db.indexed] using newIndexed
    | some newColumns =>
        obtain ⟨old, oldView, oldContent, oldRevision⟩ := Db.embeddingView_of_indexed indexed
        obtain ⟨new, newView, newContent, newRevision⟩ := Db.embeddingView_of_indexed newIndexed
        obtain ⟨monotone, bumped, _⟩ := evolves.kept old new oldView newView
        rw [oldRevision, newRevision] at monotone bumped
        refine Or.inr ⟨newColumns, newIndexed, le_trans passed monotone, fun current => ?_⟩
        rcases bumped with same | rose
        · rw [← newContent, same, oldContent]
          exact snapshot (le_antisymm (by omega) passed)
        · omega

theorem TaskFresh.storeStep {call : StoreCall} {task : EmbedTask} (indexOk : IndexOk db)
    (stepEq : storeStep db call = some next) (fresh : TaskFresh db task) :
    TaskFresh next task := by
  cases task with
  | contentRead process id content => trivial
  | queued process work => exact WorkFresh.storeStep indexOk stepEq fresh
  | computed process work embedding =>
      exact ⟨WorkFresh.storeStep indexOk stepEq fresh.1, fresh.2⟩

end Steps

/-! ## Worlds -/

/-- The index is well formed, and stored vectors and work in flight are fresh. -/
structure FreshWorld (world : World) : Prop where
  indexOk : IndexOk world.db
  vectors : VectorsFresh world.db
  tasks : ∀ task ∈ world.tasks, TaskFresh world.db task

/-- The read of a revision is not torn from the read of its content: a memory
that still exists holds the content that was read. -/
def UntornRead (world : World) (action : WorldAction) : Prop :=
  match action with
  | .readRevision position =>
      ∀ process id content, world.tasks[position]? = some (.contentRead process id content) →
        ∀ row, world.db.memories.find? id = some row → row.content = content
  | _ => True

section Worlds

variable [Host] {world next : World}

omit [Host] in
theorem FreshWorld.eraseTask (fresh : FreshWorld world) (position : Nat) :
    FreshWorld { world with tasks := world.tasks.eraseIdx position } where
  indexOk := fresh.indexOk
  vectors := fresh.vectors
  tasks task taskMem := fresh.tasks task (List.mem_of_mem_eraseIdx taskMem)

omit [Host] in
theorem FreshWorld.setTask {task : EmbedTask} (fresh : FreshWorld world) (position : Nat)
    (taskFresh : TaskFresh world.db task) :
    FreshWorld { world with tasks := world.tasks.set position task } where
  indexOk := fresh.indexOk
  vectors := fresh.vectors
  tasks other otherMem := by
    rcases List.mem_or_eq_of_mem_set otherMem with old | rfl
    · exact fresh.tasks other old
    · exact taskFresh

theorem FreshWorld.call {process : EngineProcess} {now : Instant} {command : StoreCommand}
    (fresh : FreshWorld world) (stepEq : worldStep world (.call process now command) = some next) :
    FreshWorld next := by
  simp only [worldStep] at stepEq
  split at stepEq
  case isFalse => cases stepEq
  case isTrue own =>
    obtain ⟨after, storeEq, rfl⟩ := Option.map_eq_some_iff.mp stepEq
    refine ⟨(storeStep_sustains storeEq fresh.indexOk).1, ?_, ?_⟩
    · refine fresh.vectors.storeStep fresh.indexOk storeEq ?_
      intro id view embedding _ wrote vectorEq
      exact (StoreCall.vector_of_writes own wrote vectorEq).1
    · intro task taskMem
      rcases List.mem_append.mp taskMem with old | spawned
      · exact (fresh.tasks task old).storeStep fresh.indexOk storeEq
      · obtain ⟨work, workMem, rfl⟩ := List.mem_map.mp spawned
        exact (holds_of_embedWork storeEq workMem).workFresh

theorem FreshWorld.readRevision {position : Nat} (fresh : FreshWorld world)
    (untorn : UntornRead world (.readRevision position))
    (stepEq : worldStep world (.readRevision position) = some next) : FreshWorld next := by
  simp only [worldStep] at stepEq
  split at stepEq
  case h_2 => cases stepEq
  case h_1 process id content present =>
    split at stepEq
    case h_2 =>
      cases stepEq
      exact fresh.eraseTask position
    case h_1 revision _ ran =>
      cases stepEq
      obtain ⟨_, row, found, rowRevision⟩ := embeddingRevision_ok ran
      have rowContent := untorn process id content present row found
      refine fresh.setTask position (Holds.workFresh ⟨row.indexedColumns, ?_, rowContent,
        rowRevision⟩)
      simp [Db.indexed, found]

theorem FreshWorld.writeBack {position : Nat} {now : Instant} (fresh : FreshWorld world)
    (stepEq : worldStep world (.writeBack position now) = some next) : FreshWorld next := by
  simp only [worldStep] at stepEq
  split at stepEq
  case h_2 => cases stepEq
  case h_1 process work embedding present =>
    obtain ⟨after, storeEq, rfl⟩ := Option.map_eq_some_iff.mp stepEq
    have taskFresh := fresh.tasks _ (List.mem_of_getElem? present)
    have workFresh := WorkFresh.storeStep fresh.indexOk storeEq taskFresh.1
    refine ⟨(storeStep_sustains storeEq fresh.indexOk).1, ?_, ?_⟩
    · refine fresh.vectors.storeStep fresh.indexOk storeEq ?_
      rintro id view vector viewEq ⟨written, revisionEq⟩ vectorEq
      rw [written.vector_eq] at vectorEq
      cases vectorEq
      obtain ⟨columns, indexed, contentEq, columnsRevision⟩ := Db.indexed_of_embeddingView viewEq
      rw [written.id_eq] at indexed
      rcases workFresh with ⟨absent, _⟩ | ⟨found, foundEq, _, snapshot⟩
      · rw [absent] at indexed
        cases indexed
      · rw [indexed] at foundEq
        cases foundEq
        rw [taskFresh.2, ← contentEq, snapshot (columnsRevision.trans revisionEq)]
    · intro task taskMem
      exact (fresh.tasks task (List.mem_of_mem_eraseIdx taskMem)).storeStep fresh.indexOk storeEq

/-- A step with an untorn read keeps everything fresh. -/
theorem FreshWorld.step {action : WorldAction} (fresh : FreshWorld world)
    (untorn : UntornRead world action) (stepEq : worldStep world action = some next) :
    FreshWorld next := by
  cases action with
  | call process now command => exact fresh.call stepEq
  | readContent process id principal =>
      simp only [worldStep] at stepEq
      split at stepEq
      case h_1 content _ _ =>
        cases stepEq
        refine ⟨fresh.indexOk, fresh.vectors, fun task taskMem => ?_⟩
        rcases List.mem_append.mp taskMem with old | new
        · exact fresh.tasks task old
        · rw [List.mem_singleton.mp new]
          trivial
      case h_2 => cases stepEq
  | readRevision position => exact fresh.readRevision untorn stepEq
  | complete position values =>
      simp only [worldStep] at stepEq
      split at stepEq
      case h_1 process work present =>
        cases stepEq
        exact fresh.setTask position ⟨fresh.tasks _ (List.mem_of_getElem? present), rfl⟩
      case h_2 => cases stepEq
  | writeBack position now => exact fresh.writeBack stepEq
  | abandon position =>
      cases stepEq
      exact fresh.eraseTask position

/-- In every run without a torn read, from a database whose vectors are fresh,
every flagged memory has a vector computed from the content it holds now. -/
theorem embeddings_fresh_of_untorn_reads {start final : World} {actions : List WorldAction}
    (indexOk : IndexOk start.db) (fresh : EmbeddingsFresh start.db) (idle : start.tasks = [])
    (untorn : Guarded worldStep UntornRead start actions)
    (runEq : run worldStep start actions = some final) : EmbeddingsFresh final.db := by
  have startFresh : FreshWorld start :=
    ⟨indexOk, indexOk.vectorsMeet_iff.mpr fresh, by simp [idle]⟩
  have finalFresh : FreshWorld final :=
    run_invariant_of_guarded (fun _ _ _ holds allowed stepEq => holds.step allowed stepEq) untorn
      startFresh runEq
  exact finalFresh.indexOk.vectorsMeet_iff.mp finalFresh.vectors

end Worlds

/-! ## Runs from an empty database -/

/-- A world with an empty database and no work in flight. -/
def emptyWorld : World :=
  ⟨Db.empty 1, []⟩

theorem embeddingsFresh_empty (dimensions : Nat) : EmbeddingsFresh (Db.empty dimensions) := by
  intro row rowMem
  cases rowMem

/-- A process with a provider of one dimension. -/
def plainProcess : EngineProcess :=
  let profile : EmbeddingProfile := ⟨"provider", "endpoint", "model", 1⟩
  ⟨⟨1, some profile⟩, profile⟩

/-- Open the database and store a memory whose first embedding fails. -/
def storeUnembedded : List WorldAction :=
  [.call plainProcess 0 (.verifyEmbeddingProfile plainProcess.provider),
    .call plainProcess 0 (.store ⟨Memory.plain ⟨1⟩ "agent" "old" 0, none⟩ none),
    .abandon 0]

/-- Replace the content of that memory. -/
def replaceContent : WorldAction :=
  .call plainProcess 1
    (.updateAuthorized ⟨1⟩ { MemoryUpdate.default with content := some "new" } "agent" none)

/-- Re-embed that memory with nothing in between. -/
def untornReembed : List WorldAction :=
  storeUnembedded ++ [.readContent plainProcess ⟨1⟩ "agent", .readRevision 0,
    .complete 0 [.finite 1], .writeBack 0 2]

/-- Re-embed that memory while its content is replaced between the two reads. -/
def tornReembed : List WorldAction :=
  storeUnembedded ++ [.readContent plainProcess ⟨1⟩ "agent", replaceContent, .readRevision 0,
    .complete 0 [.finite 1], .writeBack 0 2]

/-- The memories that carry a vector, with their content and the content the
vector was computed from. -/
def World.embedded (world : World) : List (String × Option String) :=
  (world.db.memories.select fun row => row.hasEmbedding == 1).map fun row =>
    (row.content, (world.db.vectorOf row.id).map (·.source))

theorem EmbeddingsFresh.embedded {world : World} (fresh : EmbeddingsFresh world.db) :
    ∀ entry ∈ world.embedded, entry.2 = some entry.1 := by
  intro entry entryMem
  obtain ⟨row, rowMem, rfl⟩ := List.mem_map.mp entryMem
  obtain ⟨stored, flag⟩ := Table.mem_select_iff.mp rowMem
  obtain ⟨embedding, vectorEq, sourceEq⟩ := fresh row stored (beq_iff_eq.mp flag)
  simp [vectorEq, sourceEq]

theorem untornReembed_guarded :
    @Guarded _ _ (@worldStep asciiHost) UntornRead emptyWorld untornReembed := by
  refine Guarded.cons trivial rfl (Guarded.cons trivial rfl (Guarded.cons trivial rfl ?_))
  refine Guarded.cons trivial rfl (Guarded.cons ?_ rfl ?_)
  · intro process id content present row found
    cases present
    cases found
    rfl
  · exact Guarded.cons trivial rfl (Guarded.cons trivial rfl trivial)

theorem embeddings_fresh_after_untorn_reembed :
    ∃ final, @run _ _ (@worldStep asciiHost) emptyWorld untornReembed = some final ∧
      final.embedded = [("old", some "old")] ∧ EmbeddingsFresh final.db := by
  exact ⟨_, rfl, rfl, @embeddings_fresh_of_untorn_reads asciiHost emptyWorld _ untornReembed
    (indexOk_empty 1) (embeddingsFresh_empty 1) rfl untornReembed_guarded rfl⟩

/-- A content change between the two reads of `get_for_reembed` leaves a vector
of the old content on the new one. -/
theorem embeddings_stale_after_torn_reembed :
    IndexOk emptyWorld.db ∧ EmbeddingsFresh emptyWorld.db ∧ emptyWorld.tasks = [] ∧
      ∃ final, @run _ _ (@worldStep asciiHost) emptyWorld tornReembed = some final ∧
        final.embedded = [("new", some "old")] ∧ ¬ EmbeddingsFresh final.db := by
  refine ⟨indexOk_empty 1, embeddingsFresh_empty 1, rfl, _, rfl, rfl, fun fresh => ?_⟩
  have sameSource := fresh.embedded ("new", some "old") (by decide)
  simp at sameSource

end LocalHold
