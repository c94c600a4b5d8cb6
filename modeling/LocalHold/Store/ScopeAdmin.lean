import LocalHold.Store.ScopeRuns

/-!
# The compatibility scope of stores and administration

Metadata maintenance writes the key it read in the same transaction,
reassignment puts its target first among the contexts of a memory, and a
governed store states the key of its first context.  With the other writers
this gives the scope copies of every reachable state.
-/

namespace LocalHold

open Relational Transition Transition.Txn

/-! ## Metadata maintenance -/

theorem safe_upsertMetadataAudited (metadata : MemoryMetadata) (audit : Option AuditDraft)
    (now : Instant) : Within ScopeSafe (upsertMetadataAudited metadata audit now) := by
  intro db value next ran cached
  have ran := of_reads_bind ran
  obtain ⟨_, _, ran⟩ := of_expect_bind ran
  have ran := of_reads_bind ran
  obtain ⟨stated, ran⟩ := of_require_bind ran
  obtain ⟨_, written, upsertRan, ran⟩ := bind_eq_ok.mp ran
  obtain ⟨_, advanced, advanceRan, audited⟩ := bind_eq_ok.mp ran
  rw [Bool.and_eq_true, beq_iff_eq] at stated
  have writtenCached : written.ScopesCached := by
    refine (touchesScope_upsertMetadata metadata now upsertRan).safe (fun _ => ?_) cached
    rw [scopeView_upsertMetadata upsertRan, stated.1]
    refine ⟨(cached.cached metadata.memoryId).conversation, ?_,
      (cached.cached metadata.memoryId).ordinals⟩
    intro stored present
    exact (Option.some.inj (Option.some.inj present)).symm
  have advancedCached := (keepsScopes_incrementRecordRevision _ _).safe advanceRan writtenCached
  exact safe_auditAfter audited advancedCached

/-- Metadata for a stored memory touches this memory. -/
theorem ScopeTouches.of_insertOrIgnore {db : Db} {fresh : MetadataRow}
    (missing : db.metadata.contains fresh.metadata.memoryId = false)
    (parent : db.memories.contains fresh.metadata.memoryId = true) :
    ScopeTouches (fun other => other = fresh.metadata.memoryId) db
      { db with metadata := db.metadata.insertOrIgnore fresh } := by
  apply ScopeTouches.of_metadata
  · intro id present
    rw [Table.contains, Table.find?_insertOrIgnore_of_absent missing] at present
    split at present
    · rename_i here
      rw [here]
      exact Or.inr parent
    · exact Or.inl present
  · intro id different
    rw [Table.find?_insertOrIgnore_of_absent missing, if_neg different]

/-- Migrating the metadata of a memory touches this memory. -/
theorem touchesScope_insertMigratedMetadata (row : PreparedMigrationMetadata)
    (audit : Option AuditDraft) (now : Instant) :
    TouchesScope row.id (insertMigratedMetadata row audit now) := by
  intro db value next ran
  have ran := of_reads_bind ran
  split at ran
  · cases pure_eq_ok.mp ran
    exact Std.Refl.refl db
  · rename_i absent
    have ran := of_reads_bind ran
    obtain ⟨parent, ran⟩ := of_require_bind ran
    obtain ⟨_, written, insertRan, ran⟩ := bind_eq_ok.mp ran
    obtain ⟨_, advanced, advanceRan, ran⟩ := bind_eq_ok.mp ran
    obtain ⟨_, _, audited, done⟩ := bind_eq_ok.mp ran
    cases pure_eq_ok.mp done
    cases writes_eq_ok.mp insertRan
    have missing : db.metadata.contains row.id = false := by simpa using absent
    have audits : KeepsScopes (onSome audit (insertAuditDraft row.id)) :=
      Within.onSome fun _ _ => keepsScopes_insertAuditDraft _ _
    refine IsTrans.trans db _ next ?_ (IsTrans.trans _ advanced next
      ((keepsScopes_incrementRecordRevision _ _).touches advanceRan) (audits.touches audited))
    exact ScopeTouches.of_insertOrIgnore missing parent

/-- Inserting metadata keeps every key, and is safe under the current key. -/
theorem cached_insertMigratedMetadata {row : PreparedMigrationMetadata}
    {audit : Option AuditDraft} {now : Instant} {db next : Db} {inserted : Bool}
    (cached : db.ScopesCached) (current : row.scopeKey = db.compatibilityScopeKey row.id)
    (ran : insertMigratedMetadata row audit now db = .ok (inserted, next)) :
    next.ScopesCached ∧ ∀ id, next.compatibilityScopeKey id = db.compatibilityScopeKey id := by
  have ran := of_reads_bind ran
  split at ran
  · cases pure_eq_ok.mp ran
    exact ⟨cached, fun _ => rfl⟩
  · rename_i absent
    have ran := of_reads_bind ran
    obtain ⟨parent, ran⟩ := of_require_bind ran
    obtain ⟨_, written, insertRan, ran⟩ := bind_eq_ok.mp ran
    obtain ⟨_, advanced, advanceRan, ran⟩ := bind_eq_ok.mp ran
    obtain ⟨_, _, audited, done⟩ := bind_eq_ok.mp ran
    cases pure_eq_ok.mp done
    cases writes_eq_ok.mp insertRan
    have missing : db.metadata.contains row.id = false := by simpa using absent
    let fresh : MetadataRow :=
      { metadata :=
          ⟨row.id, some row.scopeKey, none, row.agentLabel, none, migrationQualityFlags row, 1⟩
        migratedAt := some now
        updatedAt := now }
    have rows : ∀ id, (db.metadata.insertOrIgnore fresh).find? id =
        if id = row.id then some fresh else db.metadata.find? id :=
      fun _ => Table.find?_insertOrIgnore_of_absent missing
    have touches : ScopeTouches (fun other => other = row.id) db
        { db with metadata := db.metadata.insertOrIgnore fresh } :=
      ScopeTouches.of_insertOrIgnore missing parent
    have writtenCached := touches.safe (fun _ => by
      refine ⟨(cached.cached row.id).conversation, ?_, (cached.cached row.id).ordinals⟩
      intro stored present
      simp only [Db.scopeView, rows, if_true, Option.map_some, Option.some.injEq] at present
      have copied : some row.scopeKey = some stored := present
      rw [← Option.some.inj copied, current]
      rfl) cached
    have advances := keepsScopes_incrementRecordRevision _ _ advanceRan
    have audits : ScopeTouches (fun _ => False) advanced next :=
      Within.onSome (fun _ _ => keepsScopes_insertAuditDraft _ _) audited
    have advancedCached := advances.safe_of_kept writtenCached
    refine ⟨audits.safe_of_kept advancedCached, fun id => ?_⟩
    have later := congrArg ScopeView.key ((audits advancedCached.anchored).2 id not_false)
    have earlier := congrArg ScopeView.key ((advances writtenCached.anchored).2 id not_false)
    exact later.trans earlier

/-- Prepared rows state the current keys of their memories. -/
def PreparedFor (rows : List PreparedMigrationMetadata) (db : Db) : Prop :=
  db.ScopesCached ∧ ∀ row ∈ rows, row.scopeKey = db.compatibilityScopeKey row.id

theorem preparedFor_mapM {rows pending : List PreparedMigrationMetadata}
    {audit : Option AuditDraft} {now : Instant} {db next : Db} {inserted : List Bool}
    (prepared : PreparedFor rows db) (subset : pending ⊆ rows)
    (ran : (pending.mapM fun row => insertMigratedMetadata row audit now) db =
      .ok (inserted, next)) : PreparedFor rows next := by
  induction pending generalizing db inserted with
  | nil =>
      cases pure_eq_ok.mp ran
      exact prepared
  | cons row pending inductionHypothesis =>
      rw [List.mapM_cons] at ran
      obtain ⟨_, middle, rowRan, ran⟩ := bind_eq_ok.mp ran
      obtain ⟨_, _, restRan, done⟩ := bind_eq_ok.mp ran
      cases pure_eq_ok.mp done
      have current := prepared.2 row (subset List.mem_cons_self)
      obtain ⟨cached, keys⟩ := cached_insertMigratedMetadata prepared.1 current rowRan
      refine inductionHypothesis ⟨cached, fun other otherMem => ?_⟩
        (fun other otherMem => subset (List.mem_cons_of_mem row otherMem)) restRan
      rw [keys, prepared.2 other otherMem]

theorem safe_migrateMetadata [Host] (dryRun : Bool) (audit : Option AuditDraft) (now : Instant) :
    Within ScopeSafe (migrateMetadata dryRun audit now) := by
  intro db value next ran cached
  have ran := of_reads_bind ran
  have ran := of_reads_bind ran
  split at ran
  · cases pure_eq_ok.mp ran
    exact cached
  · obtain ⟨_, _, rowsRan, done⟩ := bind_eq_ok.mp ran
    cases pure_eq_ok.mp done
    have prepared : PreparedFor db.metadataMigrationRows db := by
      refine ⟨cached, fun row rowMem => ?_⟩
      obtain ⟨stored, _, rfl⟩ := List.mem_map.mp rowMem
      rfl
    exact (preparedFor_mapM prepared (List.Subset.refl _) rowsRan).1

/-! ## Scope reassignment -/

theorem getLast?_dedup_append_singleton {α : Type} [DecidableEq α] (items : List α) (last : α) :
    (items ++ [last]).dedup.getLast? = some last := by
  induction items with
  | nil => rfl
  | cons first items inductionHypothesis =>
      rw [List.cons_append]
      by_cases later : first ∈ items ++ [last]
      · rw [List.dedup_cons_of_mem later, inductionHypothesis]
      · rw [List.dedup_cons_of_notMem later, List.getLast?_cons, inductionHypothesis]
        rfl

theorem head?_reassignedContexts (contextIds : List ContextId) (target : ContextId) :
    (reassignedContexts contextIds target).head? = some target := by
  cases contextIds with
  | nil => rfl
  | cons first rest =>
      rw [reassignedContexts, List.head?_reverse, List.reverse_cons]
      exact getLast?_dedup_append_singleton _ _

/-- Reassignment copies the key of its target and then puts the target first. -/
theorem restores_reassignMemory {target : ContextId} {found : ContextRow}
    {fromScope principal : String} {audit : Option AuditDraft} {now : Instant} {id : MemoryId}
    {db next : Db} {value : Unit} (targetFound : db.contexts.find? target = some found)
    (ran : reassignMemory target found.context.key fromScope principal audit now id db =
      .ok (value, next)) : ScopeRestored id db next := by
  have whole := (leavesLinks_reassignMemory _ _ _ _ _ _ _).leavesContexts ran
  obtain ⟨_, moved, moveRan, ran⟩ := bind_eq_ok.mp ran
  obtain ⟨_, advanced, advanceRan, ran⟩ := bind_eq_ok.mp ran
  obtain ⟨_, labelled, metadataRan, ran⟩ := bind_eq_ok.mp ran
  have ran := of_reads_bind ran
  obtain ⟨_, emptied, deleteRan, ran⟩ := bind_eq_ok.mp ran
  obtain ⟨_, joined, insertRan, ran⟩ := bind_eq_ok.mp ran
  have audits : ∀ draft, KeepsScopes (do
      insertContextAudit draft (some target) (some id) now
      onSome audit (insertAuditDraft id)) := fun draft =>
    Within.bind (keepsScopes_insertContextAudit draft _ _ _) fun _ =>
      Within.onSome fun _ _ => keepsScopes_insertAuditDraft _ _
  have auditLeaves : ∀ draft, LeavesContexts (do
      insertContextAudit draft (some target) (some id) now
      onSome audit (insertAuditDraft id)) := fun draft =>
    Within.bind (quiet_insertContextAudit draft _ _ _).leavesLinks.leavesContexts fun _ =>
      Within.onSome fun _ _ => (quiet_insertAuditDraft _ _).leavesLinks.leavesContexts
  have moves := touchesScope_updateMemoryWhere _ _ _ _ moveRan
  have advances := keepsScopes_incrementRecordRevision _ _ advanceRan
  have labels := touchesScope_setMetadataScope _ _ _ metadataRan
  refine ScopeRestored.followed ⟨?_, fun anchored => ?_⟩ (audits _ ran)
  · refine IsTrans.trans db moved _ moves ?_
    refine IsTrans.trans moved advanced _ advances.weaken ?_
    refine IsTrans.trans advanced labelled _ labels ?_
    exact IsTrans.trans labelled emptied _ (touchesScope_deleteMembershipRows id deleteRan)
      (touchesScope_insertMembershipRows _ _ _ insertRan)
  · have view := @scopeView_updateMemory _ _ _ (fun _ => some found.context.key)
      (fun _ => rfl) _ _ _ moveRan
    rw [← (advances (moves anchored).1).2 id not_false] at view
    have labelledView := scopeView_setMetadataScope metadataRan
    rw [view] at labelledView
    have copies : joined.memories = labelled.memories ∧ joined.metadata = labelled.metadata := by
      cases writes_eq_ok.mp deleteRan
      obtain ⟨_, ⟨_, rfl⟩, _⟩ := insertMembershipRows_ok insertRan
      exact ⟨rfl, rfl⟩
    have contexts : joined.contexts.find? target = some found := by
      have later := auditLeaves _ ran
      rw [← targetFound]
      simp only [Keeps, Db.contextTables, Prod.mk.injEq] at whole later
      rw [← later.1, whole.1]
    obtain ⟨rows, _, _⟩ := insertMembershipRows_ok insertRan
    rw [membershipsOf_deleteMembershipRows deleteRan, List.nil_append] at rows
    have key : joined.compatibilityScopeKey id = found.context.key := by
      rw [Db.compatibilityScopeKey_of_rows rows, Db.primaryKey, head?_reassignedContexts]
      simp [contexts]
    refine @ScopeView.cached_of_set _ found.context.key key ?_ ?_ (Db.ordinals_of_rows rows)
    · intro stored present
      have copied := congrArg ScopeView.conversation labelledView
      simp only [Db.scopeView, copies] at copied present
      rw [copied] at present
      obtain ⟨_, _, rfl⟩ := Option.map_eq_some_iff.mp present
      rfl
    · intro stored present
      have copied := congrArg ScopeView.metadataScope labelledView
      simp only [Db.scopeView, copies] at copied present
      rw [copied] at present
      obtain ⟨_, _, rfl⟩ := Option.map_eq_some_iff.mp present
      rfl

section Restoring

variable {relation : Db → Db → Prop} [Std.Refl relation] [IsTrans Db relation]

theorem related_of_reassignAll (restored : ∀ id db next, ScopeRestored id db next → relation db next)
    {target : ContextId} {found : ContextRow} {fromScope principal : String}
    {audit : Option AuditDraft} {now : Instant} {ids : List MemoryId} {db next : Db}
    {value : Unit} (targetFound : db.contexts.find? target = some found)
    (ran : ids.forM (reassignMemory target found.context.key fromScope principal audit now) db =
      .ok (value, next)) : relation db next := by
  induction ids generalizing db with
  | nil =>
      cases pure_eq_ok.mp ran
      exact Std.Refl.refl next
  | cons id ids inductionHypothesis =>
      obtain ⟨_, middle, firstRan, restRan⟩ := bind_eq_ok.mp ran
      have contexts := (leavesLinks_reassignMemory _ _ _ _ _ _ _).leavesContexts firstRan
      simp only [Keeps, Db.contextTables, Prod.mk.injEq] at contexts
      refine IsTrans.trans db middle next
        (restored id db middle (restores_reassignMemory targetFound firstRan)) ?_
      apply inductionHypothesis _ restRan
      rw [contexts.1, targetFound]

variable [Host]

/-- A reassignment leaves the scopes or restores them. -/
theorem within_applyReassignScope
    (kept : ∀ db next, ScopeTouches (fun _ => False) db next → relation db next)
    (restored : ∀ id db next, ScopeRestored id db next → relation db next) (newId : ContextId)
    (fromScope toScope : String) (origin : Option String) (principal : String)
    (audit : Option AuditDraft) (now : Instant) :
    Within relation (applyReassignScope newId fromScope toScope origin principal audit now) := by
  refine Within.bind Within.reads fun authorized => ?_
  split
  · exact Within.pure
  · refine Within.bind (Within.mono (keepsScopes_of_keysGrow
      (leavesMemories_resolveOrCreatePrivateLegacyContext _ _ _ _)
      (keysGrow_resolveOrCreatePrivateLegacyContext _ _ _ _)) kept) fun target => ?_
    intro db value next ran
    have ran := of_reads_bind ran
    obtain ⟨found, targetFound, ran⟩ := of_expect_bind ran
    obtain ⟨_, _, reassigned, done⟩ := bind_eq_ok.mp ran
    cases pure_eq_ok.mp done
    exact related_of_reassignAll restored targetFound reassigned

end Restoring

/-! ## Governed stores -/

variable [Host]

omit [Host] in
/-- A memory that is not stored has neither memberships nor metadata. -/
theorem Db.Anchored.nothing_attached {db : Db} {id : MemoryId} (anchored : db.Anchored)
    (absent : db.memories.contains id = false) :
    db.membershipsOf id = [] ∧ db.metadata.contains id = false := by
  refine ⟨List.eq_nil_iff_forall_not_mem.mpr fun row rowMem => ?_, ?_⟩
  · obtain ⟨stored, own⟩ := Table.mem_select_iff.mp rowMem
    have parent := (anchored.memberships row stored).1
    rw [decide_eq_true_eq.mp own, absent] at parent
    cases parent
  · by_contra present
    have parent := anchored.metadata id (by simpa using present)
    rw [absent] at parent
    cases parent

omit [Host] in
theorem touchesScope_insertMemoryRow (row : MemoryRow) :
    TouchesScope row.id (insertMemoryRow row) := by
  intro db value next ran anchored
  have ran := of_reads_bind ran
  obtain ⟨memories, inserted, written⟩ := of_expect_bind ran
  cases writes_eq_ok.mp written
  have stored : ∀ id, db.memories.contains id = true → memories.contains id = true := by
    intro id present
    rw [Table.contains, Table.find?_insert? inserted]
    split
    · rfl
    · exact present
  refine ⟨⟨?_, ?_⟩, fun id different => ?_⟩
  · intro member memberMem
    exact ⟨stored _ (anchored.memberships member memberMem).1,
      (anchored.memberships member memberMem).2⟩
  · intro id present
    exact stored id (anchored.metadata id present)
  · simp only [Db.scopeView, Table.find?_insert? inserted, if_neg different]
    rfl

omit [Host] in
theorem keepsMemberships_markSuperseded (oldId newId : MemoryId) :
    Within (Keeps Db.memoryContexts) (markSuperseded oldId newId) := by
  refine Within.bind Within.reads fun found => ?_
  cases found with
  | none => exact Within.pure
  | some existing =>
      refine Within.bind Within.require fun _ => ?_
      refine Within.bind ?_ fun _ => Within.bind Within.require fun _ => Within.pure
      refine Within.bind Within.reads fun _ => ?_
      exact Within.bind (Within.writes fun _ => rfl) fun _ => Within.pure

omit [Host] in
theorem keepsScopes_markSuperseded (oldId newId : MemoryId) :
    KeepsScopes (markSuperseded oldId newId) := by
  refine Within.bind Within.reads fun found => ?_
  cases found with
  | none => exact Within.pure
  | some existing =>
      refine Within.bind Within.require fun _ => ?_
      refine Within.bind (keepsScopes_updateMemoryWhere fun _ => rfl) fun _ => ?_
      exact Within.bind Within.require fun _ => Within.pure

omit [Host] in
/-- Indexing a stored memory leaves scopes. -/
theorem keepsScopes_indexPrepared (dimensions : Nat) (item : MemoryWithEmbedding) :
    KeepsScopes (do
      onSome item.embedding fun embedding => vectorUpsert dimensions item.memory.id embedding
      insertEntities item.memory.id item.memory.entities) :=
  Within.bind (Within.onSome fun _ _ => keepsScopes_vectorUpsert _ _ _) fun _ =>
    keepsScopes_insertEntities _ _

omit [Host] in
/-- Superseding for a stored memory leaves scopes. -/
theorem keepsScopes_supersedeAndAudit (id : MemoryId) (supersedes : Option MemoryId)
    (audit : Option AuditDraft) :
    KeepsScopes (do
      onSome supersedes fun oldId => do
        let _ ← markSuperseded oldId id
      onSome audit (insertAuditDraft id)) := by
  refine Within.bind (Within.onSome fun _ _ => ?_) fun _ => ?_
  · exact Within.bind (keepsScopes_markSuperseded _ _) fun _ => Within.pure
  · exact Within.onSome fun _ _ => keepsScopes_insertAuditDraft _ _

omit [Host] in
theorem keepsMemberships_insertPreparedWithSupersession (dimensions : Nat)
    (item : MemoryWithEmbedding) (supersedes : Option MemoryId) (audit : Option AuditDraft) :
    Within (Keeps Db.memoryContexts)
      (insertPreparedWithSupersession dimensions item supersedes audit) := by
  refine Within.bind (Within.onSome fun _ _ => ?_) fun _ => ?_
  · exact Within.bind (readsOnly_memoryExists _).within fun _ => Within.require
  · refine Within.bind (Within.bind ?_ fun _ => ?_) fun _ => ?_
    · exact Within.reads_expect_writes fun _ _ _ => rfl
    · refine Within.bind (Within.onSome fun embedding _ => ?_) fun _ => ?_
      · refine (keepsMemorySide_vectorUpsert dimensions item.memory.id embedding).mono ?_
        intro db next same
        simp only [Keeps, Db.memorySide, Prod.mk.injEq] at same
        exact same.2.2.2.1
      · refine Within.forM fun _ _ => Within.bind Within.reads fun _ => ?_
        exact Within.bind Within.require fun _ => Within.writes fun _ => rfl
    · refine Within.bind (Within.onSome fun _ _ => ?_) fun _ => ?_
      · exact Within.bind (keepsMemberships_markSuperseded _ _) fun _ => Within.pure
      · exact Within.onSome fun _ _ => Within.writes fun _ => rfl

omit [Host] in
/-- A stored memory starts with the conversation it states and without memberships. -/
theorem insertPreparedWithSupersession_scope {dimensions : Nat} {item : MemoryWithEmbedding}
    {supersedes : Option MemoryId} {audit : Option AuditDraft} {db next : Db} {value : Unit}
    (anchored : db.Anchored)
    (ran : insertPreparedWithSupersession dimensions item supersedes audit db =
      .ok (value, next)) :
    ScopeTouches (fun other => other = item.memory.id) db next ∧
      next.membershipsOf item.memory.id = [] ∧
      (next.scopeView item.memory.id).conversation =
        some item.memory.provenance.sourceConversation := by
  have memberships := keepsMemberships_insertPreparedWithSupersession _ _ _ _ ran
  have checks : ReadsOnly (onSome supersedes validateSupersededExists) :=
    Within.onSome fun _ _ => Within.bind (readsOnly_memoryExists _) fun _ => Within.require
  obtain ⟨_, _, ran⟩ := checks.of_bind ran
  obtain ⟨_, prepared, prepareRan, restRan⟩ := bind_eq_ok.mp ran
  obtain ⟨_, rowed, insertRan, indexRan⟩ := bind_eq_ok.mp prepareRan
  have inserts := touchesScope_insertMemoryRow _ insertRan
  have indexes := keepsScopes_indexPrepared dimensions item indexRan
  have supersedes := keepsScopes_supersedeAndAudit _ _ _ restRan
  have rowView : (rowed.scopeView item.memory.id).conversation =
      some item.memory.provenance.sourceConversation ∧
      db.memories.contains item.memory.id = false := by
    have insertRan := of_reads_bind insertRan
    obtain ⟨memories, inserted, written⟩ := of_expect_bind insertRan
    cases writes_eq_ok.mp written
    refine ⟨?_, (Table.insert?_eq_some_iff.mp inserted).1⟩
    simp only [Db.scopeView, Table.find?_insert? inserted]
    exact congrArg _ (if_pos rfl)
  refine ⟨?_, ?_, ?_⟩
  · refine IsTrans.trans db rowed next inserts ?_
    exact IsTrans.trans rowed prepared next indexes.weaken supersedes.weaken
  · have same : next.memoryContexts = db.memoryContexts := memberships
    rw [Db.membershipsOf, same]
    exact (anchored.nothing_attached rowView.2).1
  · have rowedAnchored := (inserts anchored).1
    rw [(supersedes (indexes rowedAnchored).1).2 _ not_false, (indexes rowedAnchored).2 _ not_false]
    exact rowView.1

/-- A governed store states the key of the first context in both copies. -/
theorem restores_storeGovernedItem {dimensions : Nat} {request : GovernedItem}
    {principal : String} {now : Instant}
    (named : request.metadata.memoryId = request.item.memory.id)
    (stated : request.item.memory.provenance.sourceConversation =
      some request.compatibilityScope) :
    Within (ScopeRestored request.item.memory.id)
      (storeGovernedItem dimensions request principal now) := by
  intro db value next ran
  obtain ⟨_, described, storeRan, contextsRan⟩ := bind_eq_ok.mp ran
  obtain ⟨_, stored, insertRan, metadataRan⟩ := bind_eq_ok.mp storeRan
  have describes := touchesScope_upsertMetadata _ _ metadataRan
  rw [named] at describes
  have joins := touchesScope_insertMemoryContexts _ _ _ _ _ _ _ contextsRan
  have touches : ScopeTouches (fun other => other = request.item.memory.id) db next := by
    intro anchored
    have inserts := (insertPreparedWithSupersession_scope anchored insertRan).1
    exact IsTrans.trans db stored next inserts (IsTrans.trans stored described next describes joins)
      anchored
  refine ⟨touches, fun anchored => ?_⟩
  obtain ⟨_, without, conversation⟩ := insertPreparedWithSupersession_scope anchored insertRan
  have view := scopeView_upsertMetadata metadataRan
  rw [named] at view
  have unjoined : described.membershipsOf request.item.memory.id = [] := by
    have metadataRan := of_reads_bind metadataRan
    obtain ⟨_, written⟩ := of_require_bind metadataRan
    cases writes_eq_ok.mp written
    exact without
  obtain ⟨key, memories, metadata, ordinals⟩ := insertMemoryContexts_ok unjoined contextsRan
  have conversationKept : (next.scopeView request.item.memory.id).conversation =
      some (some request.compatibilityScope) := by
    rw [← stated, ← conversation]
    have same := congrArg ScopeView.conversation view
    simp only [Db.scopeView, memories] at same ⊢
    exact same
  have metadataKept : (next.scopeView request.item.memory.id).metadataScope =
      some request.metadata.scopeKey := by
    have same := congrArg ScopeView.metadataScope view
    simp only [Db.scopeView, metadata] at same ⊢
    exact same
  refine ⟨?_, ?_, ordinals⟩
  · intro copy present
    rw [conversationKept] at present
    rw [← Option.some.inj present]
    exact congrArg some key.symm
  · intro copy present
    rw [metadataKept] at present
    rw [show (next.scopeView request.item.memory.id).key = request.compatibilityScope from key,
      GovernedItem.compatibilityScope, Option.some.inj present]
    rfl

omit [Host] in
theorem validateGovernedItem_states {request : GovernedItem} {db : Db} {result : String × Db}
    (ran : validateGovernedItem request db = .ok result) :
    request.metadata.memoryId = request.item.memory.id ∧
      request.item.memory.provenance.sourceConversation = some request.compatibilityScope := by
  obtain ⟨named, ran⟩ := of_require_bind ran
  obtain ⟨stated, _⟩ := of_require_bind ran
  exact ⟨beq_iff_eq.mp named, beq_iff_eq.mp stated⟩

section Restoring

variable {relation : Db → Db → Prop}
  (restored : ∀ id db next, ScopeRestored id db next → relation db next)

include restored

/-- A governed store restores the copies of the memory it stores. -/
theorem within_storeWithMetadataContexts (dimensions : Nat) (request : GovernedItem)
    (now : Instant) : Within relation (storeWithMetadataContexts dimensions request now) := by
  intro db value next ran
  obtain ⟨principal, checked, ran⟩ := (readsOnly_validateGovernedItem request).of_bind ran
  obtain ⟨named, stated⟩ := validateGovernedItem_states checked
  obtain ⟨_, _, stored, done⟩ := bind_eq_ok.mp ran
  cases pure_eq_ok.mp done
  exact restored _ _ _ (restores_storeGovernedItem named stated stored)

theorem within_storeBatchWithMetadataContexts [Std.Refl relation] [IsTrans Db relation]
    (dimensions : Nat) (items : List MemoryWithEmbedding) (supersedes : List (Option MemoryId))
    (metadata : List MemoryMetadata) (contextIds : List (List ContextId))
    (audits : List AuditDraft) (contextAudits : List ContextAuditDraft) (now : Instant) :
    Within relation (storeBatchWithMetadataContexts dimensions items supersedes metadata
      contextIds audits contextAudits now) := by
  refine Within.bind Within.require fun _ => ?_
  intro db value next ran
  obtain ⟨principals, checked, checkRan, ran⟩ := bind_eq_ok.mp ran
  have unchanged : checked = db :=
    Within.mapM (fun request _ => readsOnly_validateGovernedItem request) checkRan
  have valid := @mapM_ok_forall _ _ _ _ _ _
    (fun request : GovernedItem => request.metadata.memoryId = request.item.memory.id ∧
      request.item.memory.provenance.sourceConversation = some request.compatibilityScope)
    (fun _ _ _ _ ran => validateGovernedItem_states ran) _ _ checkRan
  rw [unchanged] at ran
  obtain ⟨_, _, stored, done⟩ := bind_eq_ok.mp ran
  cases pure_eq_ok.mp done
  refine Within.forM (fun entry entryMem => ?_) stored
  obtain ⟨named, stated⟩ := valid entry.1 (List.of_mem_zip entryMem).1
  exact Within.mono (restores_storeGovernedItem named stated) (restored _)

end Restoring

end LocalHold
