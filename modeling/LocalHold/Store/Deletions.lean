import LocalHold.Store.Entombment
import LocalHold.Store.VectorSearch

/-!
# Deletions remove a memory whole

Each deletion path removes some memories in one transaction.  A removed memory
leaves its tombstone and its audit event and nothing else.  Everything stored
about another memory stays, except that the trigger clears a link to a removed
memory and advances the revision of the memory that held it.
-/

namespace LocalHold

open Relational Transition Transition.Txn

/-! ## What is stored about a memory -/

/-- Everything stored under the identifier of a memory beside its row. -/
structure MemoryTrail where
  tombstone : Option MemoryTombstone
  audits : List AuditDraft
  attachments : Attachments
  mapping : Option EmbeddingMapRow
  vector : Option Embedding

/-- The audit events of a memory. -/
def Db.auditsOf (db : Db) (id : MemoryId) : List AuditDraft :=
  (db.auditLog.filter fun row => decide (row.memoryId = id)).map (·.draft)

/-- What the database holds about a memory beside its row. -/
def Db.trail (db : Db) (id : MemoryId) : MemoryTrail where
  tombstone := db.tombstones.find? id
  audits := db.auditsOf id
  attachments := db.attachments id
  mapping := db.embeddingMap.find? id
  vector := db.vectorOf id

/-- When a call deletes, for whom, under whose authorization and with which
audit event. -/
structure Deletion where
  deletedAt : Instant
  deletedBy : Option String
  principal : Option String
  audit : Option AuditDraft

/-- Whether the call may delete a memory. -/
def Deletion.allows (deletion : Deletion) (row : MemoryRow) : Bool :=
  deletion.principal.all fun principal =>
    writeAccessAllowed row.provenance row.accessPolicy principal

/-- What a removed memory leaves: its authorization and one audit event. -/
def Deletion.leaves (deletion : Deletion) (row : MemoryRow) (audits : List AuditDraft) :
    MemoryTrail where
  tombstone := some ⟨row.id, row.provenance, row.accessPolicy, deletion.deletedAt,
    deletion.deletedBy⟩
  audits := audits ++ deletion.audit.toList
  attachments := ⟨[], none, []⟩
  mapping := none
  vector := none

/-- A row after the memories that satisfy a condition have been removed. -/
def MemoryRow.unlinked (row : MemoryRow) (removed : MemoryId → Bool) : MemoryRow :=
  if row.supersededBy.any removed then
    { row with supersededBy := none, recordRevision := row.recordRevision + 1 }
  else row

/-- Whether a memory has been removed between two states. -/
def Db.removedBy (db next : Db) (id : MemoryId) : Bool :=
  db.memories.contains id && !next.memories.contains id

/-- Some memories are removed whole, and everything about the others stays. -/
structure Removes (deletion : Deletion) (db next : Db) : Prop where
  gone : ∀ id row, db.memories.find? id = some row → next.memories.find? id = none →
    deletion.allows row = true ∧ next.trail id = deletion.leaves row (db.auditsOf id)
  kept : ∀ id, db.removedBy next id = false →
    next.memories.find? id =
      (db.memories.find? id).map (fun row => row.unlinked (db.removedBy next)) ∧
    next.trail id = db.trail id
  vectors : ∀ mapping ∈ db.embeddingMap, db.removedBy next mapping.memoryId = true →
    next.embeddings.contains mapping.vecRowid = false
  unused : ∀ rowid, db.embeddings.contains rowid = false →
    next.embeddings.contains rowid = false

/-! ## Removals one after the other -/

theorem MemoryRow.unlinked_none (row : MemoryRow) : row.unlinked (fun _ => false) = row := by
  cases linked : row.supersededBy <;> simp [MemoryRow.unlinked, linked]

theorem MemoryRow.unlinked_unlinked (row : MemoryRow) (early late : MemoryId → Bool) :
    (row.unlinked early).unlinked late = row.unlinked fun id => early id || late id := by
  cases linked : row.supersededBy with
  | none => simp [MemoryRow.unlinked, linked]
  | some target =>
      cases first : early target <;> simp [MemoryRow.unlinked, linked, first]

section Leaves

variable (deletion : Deletion) (row : MemoryRow) (removed : MemoryId → Bool)

theorem Deletion.allows_unlinked : deletion.allows (row.unlinked removed) = deletion.allows row := by
  unfold MemoryRow.unlinked
  split <;> rfl

theorem Deletion.leaves_unlinked (audits : List AuditDraft) :
    deletion.leaves (row.unlinked removed) audits = deletion.leaves row audits := by
  unfold MemoryRow.unlinked
  split <;> rfl

end Leaves

theorem Db.removedBy_self (db : Db) : db.removedBy db = fun _ => false := by
  funext id
  simp [Db.removedBy]

theorem Db.removedBy_eq_false_iff {db next : Db} {id : MemoryId} :
    db.removedBy next id = false ↔
      db.memories.find? id = none ∨ next.memories.find? id ≠ none := by
  cases before : db.memories.find? id <;> cases after : next.memories.find? id <;>
    simp [Db.removedBy, Table.contains, before, after]

theorem Db.removedBy_eq_true_iff {db next : Db} {id : MemoryId} :
    db.removedBy next id = true ↔
      (∃ row, db.memories.find? id = some row) ∧ next.memories.find? id = none := by
  cases before : db.memories.find? id <;> cases after : next.memories.find? id <;>
    simp [Db.removedBy, Table.contains, before, after]

namespace Removes

variable {deletion : Deletion} {db middle next : Db}

theorem absent (removes : Removes deletion db next) {id : MemoryId}
    (missing : db.memories.find? id = none) : next.memories.find? id = none := by
  rw [(removes.kept id (Db.removedBy_eq_false_iff.mpr (Or.inl missing))).1, missing]
  rfl

/-- What two removals take away together. -/
theorem removedBy_trans (early : Removes deletion db middle) (late : Removes deletion middle next) :
    db.removedBy next = fun id => db.removedBy middle id || middle.removedBy next id := by
  funext id
  cases before : db.memories.find? id with
  | none =>
      have between := early.absent before
      have after := late.absent between
      simp [Db.removedBy, Table.contains, before, between]
  | some row =>
      cases between : middle.memories.find? id with
      | none =>
          have after := late.absent between
          simp [Db.removedBy, Table.contains, before, between, after]
      | some kept => simp [Db.removedBy, Table.contains, before, between]

theorem refl (deletion : Deletion) (db : Db) : Removes deletion db db where
  gone id row found missing := by
    rw [found] at missing
    cases missing
  kept id _ := by
    simp only [Db.removedBy_self, MemoryRow.unlinked_none, Option.map_id', and_self]
  vectors mapping _ removed := by
    rw [Db.removedBy_self] at removed
    cases removed
  unused _ free := free

theorem trans (early : Removes deletion db middle) (late : Removes deletion middle next) :
    Removes deletion db next where
  gone id row found missing := by
    cases between : middle.memories.find? id with
    | none =>
        obtain ⟨allowed, left⟩ := early.gone id row found between
        have stays := (late.kept id (Db.removedBy_eq_false_iff.mpr (Or.inl between))).2
        exact ⟨allowed, stays.trans left⟩
    | some held =>
        have present : db.removedBy middle id = false :=
          Db.removedBy_eq_false_iff.mpr (Or.inr (by simp [between]))
        obtain ⟨row', trail⟩ := early.kept id present
        rw [between, found] at row'
        cases row'
        obtain ⟨allowed, left⟩ := late.gone id _ between missing
        rw [Deletion.allows_unlinked] at allowed
        rw [Deletion.leaves_unlinked] at left
        have audits : middle.auditsOf id = db.auditsOf id := congrArg MemoryTrail.audits trail
        rw [audits] at left
        exact ⟨allowed, left⟩
  kept id stays := by
    have both : db.removedBy middle id = false ∧ middle.removedBy next id = false := by
      rw [removedBy_trans early late] at stays
      simpa using stays
    obtain ⟨rowEarly, trailEarly⟩ := early.kept id both.1
    obtain ⟨rowLate, trailLate⟩ := late.kept id both.2
    refine ⟨?_, trailLate.trans trailEarly⟩
    rw [rowLate, rowEarly, Option.map_map, removedBy_trans early late]
    congr 1
    funext row
    exact row.unlinked_unlinked _ _
  vectors mapping mappingMem removed := by
    rw [removedBy_trans early late, Bool.or_eq_true] at removed
    cases first : db.removedBy middle mapping.memoryId with
    | true => exact late.unused _ (early.vectors mapping mappingMem first)
    | false =>
        have second : middle.removedBy next mapping.memoryId = true := by simpa [first] using removed
        have sameMapping := congrArg MemoryTrail.mapping (early.kept _ first).2
        simp only [Db.trail, Table.mem_iff_find?.mp mappingMem] at sameMapping
        exact late.vectors mapping (Table.mem_of_find? sameMapping) second
  unused rowid free := late.unused rowid (early.unused rowid free)

end Removes

/-- A removal from a well-formed index leaves one. -/
def Deletes (deletion : Deletion) (db next : Db) : Prop :=
  IndexOk db → IndexOk next ∧ Removes deletion db next

instance (deletion : Deletion) : Std.Refl (Deletes deletion) :=
  ⟨fun db indexOk => ⟨indexOk, Removes.refl deletion db⟩⟩

instance (deletion : Deletion) : IsTrans Db (Deletes deletion) :=
  ⟨fun _ _ _ early late indexOk => by
    obtain ⟨middleOk, first⟩ := early indexOk
    obtain ⟨nextOk, second⟩ := late middleOk
    exact ⟨nextOk, first.trans second⟩⟩

/-! ## One removal -/

/-- The database after one memory has been deleted and recorded. -/
def Db.entombed (db : Db) (memory : Memory) (deletion : Deletion) : Db :=
  let buried := { db with
    tombstones := db.tombstones.upsert
      ⟨memory.id, memory.provenance, memory.accessPolicy, deletion.deletedAt, deletion.deletedBy⟩ }
  { buried.dropMemory memory.id with
    auditLog := db.auditLog ++ deletion.audit.toList.map fun draft => ⟨memory.id, draft⟩ }

section Entombed

variable {db : Db} {memory : Memory} {deletion : Deletion}

theorem Db.dropMemory_tombstones (db : Db) (id : MemoryId) :
    (db.dropMemory id).tombstones = db.tombstones := by
  unfold Db.dropMemory Db.dropEmbedding
  dsimp only
  split <;> rfl

theorem Db.dropMemory_auditLog (db : Db) (id : MemoryId) :
    (db.dropMemory id).auditLog = db.auditLog := by
  unfold Db.dropMemory Db.dropEmbedding
  dsimp only
  split <;> rfl

theorem Db.set_auditLog {log : List AuditRow} (same : db.auditLog = log) :
    { db with auditLog := log } = db := by
  subst same
  rfl

/-- Deleting a present memory, before its audit event. -/
theorem entombMemory_ok (present : db.memories.contains memory.id = true) :
    entombMemory memory deletion.deletedAt deletion.deletedBy db =
      .ok (true, db.entombed memory { deletion with audit := none }) := by
  have entombed : db.entombed memory { deletion with audit := none } =
      ({ db with
        tombstones := db.tombstones.upsert ⟨memory.id, memory.provenance, memory.accessPolicy,
          deletion.deletedAt, deletion.deletedBy⟩ } : Db).dropMemory memory.id := by
    apply Db.set_auditLog
    rw [Db.dropMemory_auditLog]
    exact (List.append_nil db.auditLog).symm
  rw [entombed]
  refine bind_eq_ok.mpr ⟨(), _, rfl, ?_⟩
  refine bind_eq_ok.mpr ⟨true, _, ?_, rfl⟩
  exact congrArg (fun found => Except.ok (found, _)) present

/-- The audit event that follows a deletion. -/
theorem insertAudit_entombed (db : Db) (memory : Memory) (deletion : Deletion) :
    onSome deletion.audit (insertAuditDraft memory.id)
        (db.entombed memory { deletion with audit := none }) =
      .ok ((), db.entombed memory deletion) := by
  cases drafted : deletion.audit with
  | none =>
      have same : { deletion with audit := none } = deletion := by rw [← drafted]
      rw [same]
      rfl
  | some draft =>
      have same : deletion = { deletion with audit := some draft } := by rw [← drafted]
      rw [same]
      simp [onSome, insertAuditDraft, writes, Db.entombed]

theorem Db.find?_entombed (id : MemoryId) :
    (db.entombed memory deletion).memories.find? id = if id = memory.id then none else
      (db.memories.find? id).map fun row => row.unlinked fun other => decide (other = memory.id) := by
  rw [Db.entombed]
  rw [Db.find?_dropMemory]
  split
  · rfl
  · congr 1
    funext row
    cases linked : row.supersededBy <;> simp [MemoryRow.unlinked, linked]

theorem Db.removedBy_entombed (present : db.memories.contains memory.id = true) :
    db.removedBy (db.entombed memory deletion) = fun id => decide (id = memory.id) := by
  funext id
  by_cases here : id = memory.id
  · subst here
    rw [Db.removedBy, present]
    simp [Table.contains, Db.find?_entombed]
  · cases before : db.memories.find? id <;>
      simp [Db.removedBy, Table.contains, Db.find?_entombed, here, before]

theorem Db.auditsOf_entombed (id : MemoryId) :
    (db.entombed memory deletion).auditsOf id =
      db.auditsOf id ++ if id = memory.id then deletion.audit.toList else [] := by
  simp only [Db.auditsOf, Db.entombed, List.filter_append, List.map_append]
  congr 1
  by_cases here : id = memory.id
  · subst here
    rw [if_pos rfl, List.filter_eq_self.mpr, List.map_map]
    · exact List.map_id _
    · intro row rowMem
      obtain ⟨draft, _, rfl⟩ := List.mem_map.mp rowMem
      exact decide_eq_true rfl
  · rw [if_neg here, List.filter_eq_nil_iff.mpr]
    · rfl
    · intro row rowMem
      obtain ⟨draft, _, rfl⟩ := List.mem_map.mp rowMem
      simpa using fun same => here same.symm

theorem Db.tombstone_entombed (id : MemoryId) :
    (db.entombed memory deletion).tombstones.find? id = if id = memory.id then
      some ⟨memory.id, memory.provenance, memory.accessPolicy, deletion.deletedAt, deletion.deletedBy⟩
      else db.tombstones.find? id := by
  rw [Db.entombed]
  dsimp only
  rw [Db.dropMemory_tombstones, Table.find?_upsert]

/-- The trail of another memory stays. -/
theorem Db.trail_entombed_of_ne (mapOk : MapOk db) {id : MemoryId} (different : id ≠ memory.id) :
    (db.entombed memory deletion).trail id = db.trail id := by
  let buried : Db := { db with
    tombstones := db.tombstones.upsert
      ⟨memory.id, memory.provenance, memory.accessPolicy, deletion.deletedAt, deletion.deletedBy⟩ }
  have attachments : (db.entombed memory deletion).attachments id = db.attachments id :=
    buried.attachments_dropMemory different
  have buriedOk : MapOk buried := ⟨mapOk.mapped, mapOk.named, mapOk.unshared⟩
  have vector : (db.entombed memory deletion).vectorOf id = db.vectorOf id :=
    Db.vectorOf_dropEmbedding buriedOk different
  have mapping : (db.entombed memory deletion).embeddingMap.find? id = db.embeddingMap.find? id := by
    have dropped : (db.entombed memory deletion).embeddingMap = db.embeddingMap.delete memory.id :=
      buried.dropEmbedding_embeddingMap memory.id
    rw [dropped, Table.find?_delete, if_neg different]
  rw [Db.trail, Db.tombstone_entombed, if_neg different, Db.auditsOf_entombed, if_neg different,
    List.append_nil, attachments, mapping, vector]
  rfl

/-- The memory itself leaves its tombstone and its audit event. -/
theorem Db.trail_entombed {row : MemoryRow} (sameId : row.id = memory.id)
    (provenance : memory.provenance = row.provenance)
    (policy : memory.accessPolicy = row.accessPolicy) :
    (db.entombed memory deletion).trail memory.id =
      deletion.leaves row (db.auditsOf memory.id) := by
  have unmapped : (db.entombed memory deletion).embeddingMap.find? memory.id = none := by
    have dropped : (db.entombed memory deletion).embeddingMap = db.embeddingMap.delete memory.id :=
      Db.dropEmbedding_embeddingMap _ memory.id
    rw [dropped, Table.find?_delete, if_pos rfl]
  have attachments : (db.entombed memory deletion).attachments memory.id = ⟨[], none, []⟩ := by
    have metadata : (db.metadata.delete memory.id).find? memory.id = none := by
      rw [Table.find?_delete, if_pos rfl]
    simp only [Db.attachments, Db.entombed, Db.dropMemory, metadata, Attachments.mk.injEq, true_and]
    exact ⟨Table.select_deleteWhere_self, Table.select_deleteWhere_self⟩
  rw [Db.trail, Db.tombstone_entombed, if_pos rfl, Db.auditsOf_entombed, if_pos rfl, attachments,
    Db.vectorOf, unmapped, Deletion.leaves, sameId, provenance, policy]
  rfl

/-- The vector that the memory names goes with it, and no vector appears. -/
theorem Db.find?_entombed_embeddings (rowid : Nat) :
    (db.entombed memory deletion).embeddings.find? rowid =
      if (db.embeddingMap.find? memory.id).any (·.vecRowid == rowid) then none
      else db.embeddings.find? rowid :=
  Db.find?_dropEmbedding _ memory.id rowid

/-- One deletion removes one memory whole. -/
theorem removes_entombed (mapOk : MapOk db) {row : MemoryRow}
    (found : db.memories.find? memory.id = some row)
    (provenance : memory.provenance = row.provenance)
    (policy : memory.accessPolicy = row.accessPolicy) (allowed : deletion.allows row = true) :
    Removes deletion db (db.entombed memory deletion) := by
  have present : db.memories.contains memory.id = true := by
    rw [Table.contains, found]
    rfl
  have onlyOne : db.removedBy (db.entombed memory deletion) = fun id => decide (id = memory.id) :=
    Db.removedBy_entombed present
  constructor
  · intro id other otherFound missing
    by_cases here : id = memory.id
    · subst here
      rw [found] at otherFound
      cases otherFound
      exact ⟨allowed, Db.trail_entombed (Table.find?_key found) provenance policy⟩
    · rw [Db.find?_entombed, if_neg here, otherFound] at missing
      cases missing
  · intro id stays
    rw [onlyOne] at stays ⊢
    have different : id ≠ memory.id := of_decide_eq_false stays
    rw [Db.find?_entombed, if_neg different]
    exact ⟨rfl, Db.trail_entombed_of_ne mapOk different⟩
  · intro mapping mappingMem removed
    rw [onlyOne] at removed
    have own : db.embeddingMap.find? memory.id = some mapping :=
      of_decide_eq_true removed ▸ Table.mem_iff_find?.mp mappingMem
    rw [Table.contains, Db.find?_entombed_embeddings, own]
    simp
  · intro rowid free
    rw [Table.contains, Db.find?_entombed_embeddings]
    split
    · rfl
    · exact free

theorem deletes_entombed {row : MemoryRow} (found : db.memories.find? memory.id = some row)
    (provenance : memory.provenance = row.provenance)
    (policy : memory.accessPolicy = row.accessPolicy) (allowed : deletion.allows row = true) :
    Deletes deletion db (db.entombed memory deletion) := by
  intro indexOk
  refine ⟨?_, removes_entombed indexOk.toMapOk found provenance policy allowed⟩
  let buried : Db := { db with
    tombstones := db.tombstones.upsert
      ⟨memory.id, memory.provenance, memory.accessPolicy, deletion.deletedAt, deletion.deletedBy⟩ }
  have sameSide : buried.indexSide = db.indexSide := rfl
  have droppedOk := (buried.shrinking_dropMemory memory.id (indexOk.of_indexSide sameSide)).1
  have audited : (db.entombed memory deletion).indexSide =
      (buried.dropMemory memory.id).indexSide := rfl
  exact droppedOk.of_indexSide audited

end Entombed

/-! ## The deletion paths -/

section Paths

variable {α : Type} {memory : Memory} {db next : Db} {value : α}

theorem of_entombMemory (deletion : Deletion) {rest : Bool → StoreM α}
    (present : db.memories.contains memory.id = true)
    (ran : (entombMemory memory deletion.deletedAt deletion.deletedBy >>= rest) db =
      .ok (value, next)) :
    rest true (db.entombed memory { deletion with audit := none }) = .ok (value, next) := by
  rw [bind_of_ok (entombMemory_ok present)] at ran
  exact ran

/-- A deletion followed by its audit event. -/
theorem of_entombMemory_audited (deletion : Deletion) {rest : Bool → StoreM α}
    (present : db.memories.contains memory.id = true)
    (ran : (entombMemory memory deletion.deletedAt deletion.deletedBy >>= fun affected =>
      onSome (if affected then deletion.audit else none) (insertAuditDraft memory.id) >>=
        fun _ => rest affected) db = .ok (value, next)) :
    rest true (db.entombed memory deletion) = .ok (value, next) := by
  have audited := of_entombMemory deletion present ran
  rw [if_pos rfl, bind_of_ok (insertAudit_entombed db memory deletion)] at audited
  exact audited

/-- A path that deletes a fetched memory, if it was found. -/
theorem deletes_fetched {deletion : Deletion} {id : MemoryId} {rest : Option Memory → StoreM α}
    (missing : Within (Deletes deletion) (rest none))
    (present : ∀ db row value next, db.memories.find? row.id = some row →
      db.memories.contains row.toMemory.id = true → row.id = id →
      rest (some row.toMemory) db = .ok (value, next) → Deletes deletion db next) :
    Within (Deletes deletion) (fetchMemoryById id >>= rest) := by
  intro db value next ran
  have fetched := of_reads_bind ran
  cases found : db.memories.find? id with
  | none =>
      rw [found] at fetched
      exact missing fetched
  | some row =>
      rw [found] at fetched
      have sameId := Table.find?_key found
      subst sameId
      refine present db row value next found ?_ rfl fetched
      exact Option.isSome_iff_exists.mpr ⟨row, found⟩

theorem deletes_applyDelete (id : MemoryId) (deletedAt : Instant) :
    Within (Deletes ⟨deletedAt, none, none, none⟩) (applyDelete id deletedAt) := by
  refine deletes_fetched Within.pure fun db row value next found present _ ran => ?_
  have entombed := of_entombMemory ⟨deletedAt, none, none, none⟩ present
    (by rw [bind_pure]; exact ran)
  cases pure_eq_ok.mp entombed
  exact deletes_entombed found rfl rfl rfl

theorem deletes_deleteAuthorized (id : MemoryId) (principal : String) (audit : Option AuditDraft)
    (deletedAt : Instant) :
    Within (Deletes ⟨deletedAt, some principal, some principal, audit⟩)
      (deleteAuthorized id principal audit deletedAt) := by
  refine deletes_fetched Within.pure fun db row value next found present _ ran => ?_
  dsimp only at ran
  split at ran
  · rename_i writable
    have done := of_entombMemory_audited ⟨deletedAt, some principal, some principal, audit⟩
      present ran
    cases pure_eq_ok.mp done
    exact deletes_entombed found rfl rfl writable
  · exact Within.pure ran

theorem deletes_deleteAuthorizedIfUnmodified (id : MemoryId) (expectedRevision : Int)
    (principal : String) (audit : AuditDraft) (deletedAt : Instant) :
    Within (Deletes ⟨deletedAt, some principal, some principal, some audit⟩)
      (deleteAuthorizedIfUnmodified id expectedRevision principal audit deletedAt) := by
  refine deletes_fetched Within.pure fun db row value next found present sameId ran => ?_
  subst sameId
  dsimp only at ran
  split at ran
  · rename_i writable
    have entombed := of_entombMemory ⟨deletedAt, some principal, some principal, some audit⟩
      present (of_require_bind ran).2
    have audited := (of_require_bind entombed).2
    have recorded : insertAuditDraft row.id audit (db.entombed row.toMemory
        ⟨deletedAt, some principal, some principal, none⟩) =
        .ok ((), db.entombed row.toMemory ⟨deletedAt, some principal, some principal, some audit⟩) :=
      insertAudit_entombed db row.toMemory
        ⟨deletedAt, some principal, some principal, some audit⟩
    have done := (bind_of_ok recorded).symm.trans audited
    cases pure_eq_ok.mp done
    exact deletes_entombed found rfl rfl writable
  · exact Within.pure ran

theorem deletes_bulkDeleteIds (ids : List MemoryId) (principal : String)
    (audit : Option AuditDraft) (deletedAt : Instant) :
    Within (Deletes ⟨deletedAt, some principal, some principal, audit⟩)
      (bulkDeleteIds ids principal audit deletedAt) := by
  refine Within.foldlM fun outcome id _ => ?_
  refine deletes_fetched Within.pure fun db row value next found present sameId ran => ?_
  subst sameId
  dsimp only at ran
  split at ran
  · rename_i writable
    have done := of_entombMemory_audited ⟨deletedAt, some principal, some principal, audit⟩
      present ran
    cases pure_eq_ok.mp done
    exact deletes_entombed found rfl rfl writable
  · exact Within.pure ran

/-- One expired memory, read before some other memories were deleted. -/
theorem deletes_evictOne {scope : ExpiredCleanupScope} {audit : AuditDraft} {now : Instant}
    {row : MemoryRow} {deleted : Bool} (authorizes : db.Authorizes row)
    (ran : evictOne scope audit now row db = .ok (deleted, next)) :
    Deletes ⟨now, some scope.actor, scope.authorizationPrincipal, some audit⟩ db next := by
  obtain ⟨current, found, provenance, policy⟩ := authorizes
  unfold evictOne at ran
  split at ran
  · cases pure_eq_ok.mp ran
    exact Std.Refl.refl db
  · rename_i allowed
    have present : db.memories.contains row.toMemory.id = true :=
      Option.isSome_iff_exists.mpr ⟨current, found⟩
    have done := of_entombMemory_audited
      ⟨now, some scope.actor, scope.authorizationPrincipal, some audit⟩ present ran
    cases pure_eq_ok.mp done
    refine deletes_entombed found provenance.symm policy.symm ?_
    rw [Deletion.allows, provenance, policy]
    dsimp only
    cases principal : scope.authorizationPrincipal with
    | none => rfl
    | some name => simpa [principal] using allowed

theorem deletes_evictRows {scope : ExpiredCleanupScope} {audit : AuditDraft} {now : Instant}
    {rows : List MemoryRow} (distinct : (rows.map (·.id)).Nodup) {deleted : List Bool}
    (authorizes : ∀ row ∈ rows, db.Authorizes row)
    (ran : rows.mapM (evictOne scope audit now) db = .ok (deleted, next)) :
    Deletes ⟨now, some scope.actor, scope.authorizationPrincipal, some audit⟩ db next := by
  induction rows generalizing db deleted with
  | nil =>
      cases pure_eq_ok.mp ran
      exact Std.Refl.refl _
  | cons row rest inductionHypothesis =>
      rw [List.map_cons, List.nodup_cons] at distinct
      rw [List.mapM_cons] at ran
      obtain ⟨_, middle, evicted, ran⟩ := bind_eq_ok.mp ran
      obtain ⟨_, last, restRan, done⟩ := bind_eq_ok.mp ran
      cases pure_eq_ok.mp done
      have own := authorizes row List.mem_cons_self
      obtain ⟨_, others⟩ := entombs_evictOne own evicted
      refine IsTrans.trans db middle next (deletes_evictOne own evicted)
        (inductionHypothesis distinct.2 (fun other otherMem => ?_) restRan)
      refine others other ?_ (authorizes other (List.mem_cons_of_mem row otherMem))
      intro same
      exact distinct.1 (List.mem_map.mpr ⟨other, otherMem, same⟩)

end Paths

/-! ## Every reachable state -/

/-- What a command deletes with, if it is one of the deletion operations. -/
def StoreCommand.deletion (now : Instant) : StoreCommand → Option Deletion
  | .delete _ => some ⟨now, none, none, none⟩
  | .deleteAuthorized _ principal audit => some ⟨now, some principal, some principal, audit⟩
  | .deleteIfUnmodified _ _ principal audit =>
      some ⟨now, some principal, some principal, some audit⟩
  | .bulkDelete _ principal audit => some ⟨now, some principal, some principal, audit⟩
  | .evictExpired scope audit =>
      some ⟨now, some scope.actor, scope.authorizationPrincipal, some audit⟩
  | _ => none

section Runs

variable [Host]

theorem deletes_evictExpired (scope : ExpiredCleanupScope) (audit : AuditDraft) (now : Instant) :
    Within (Deletes ⟨now, some scope.actor, scope.authorizationPrincipal, some audit⟩)
      (evictExpired scope audit now) := by
  intro db value next ran
  have ran := of_reads_bind ran
  obtain ⟨_, _, evicted, done⟩ := bind_eq_ok.mp ran
  cases pure_eq_ok.mp done
  refine deletes_evictRows ?_ (fun row rowMem => ?_) evicted
  · rw [Db.expiredRows, ((List.mergeSort_perm _ _).map _).nodup_iff]
    exact db.memories.nodup.sublist (List.filter_sublist.map _)
  · rw [Db.expiredRows, List.mem_mergeSort, Table.mem_select_iff] at rowMem
    exact ⟨row, Table.mem_iff_find?.mp rowMem.1, rfl, rfl⟩

theorem deletes_body {command : StoreCommand} {now : Instant} {deletion : Deletion}
    (isDeletion : command.deletion now = some deletion) (handle : StoreHandle) :
    Within (Deletes deletion) (command.body handle now) := by
  cases command with
  | delete id =>
      cases isDeletion
      exact within_discard (deletes_applyDelete id now)
  | deleteAuthorized id principal audit =>
      cases isDeletion
      exact within_discard (deletes_deleteAuthorized id principal audit now)
  | deleteIfUnmodified id expectedRevision principal audit =>
      cases isDeletion
      exact within_discard
        (deletes_deleteAuthorizedIfUnmodified id expectedRevision principal audit now)
  | bulkDelete ids principal audit =>
      cases isDeletion
      exact within_discard (deletes_bulkDeleteIds ids principal audit now)
  | evictExpired scope audit =>
      cases isDeletion
      exact within_discard (deletes_evictExpired scope audit now)
  | _ => cases isDeletion

/-- In every reachable state a deletion call removes its memories whole: each
could be deleted, leaves its tombstone and the audit event, and nothing refers
to it.  Every other memory stays with all that is stored about it, except that a link
to a removed memory is cleared. -/
theorem deletions_whole {file : IndexFile} {opened db next : Db} {calls : List StoreCall}
    {call : StoreCall} {deletion : Deletion} (openRan : openIndex file = .ok opened)
    (runEq : run storeStep opened calls = some db) (stepEq : storeStep db call = some next)
    (isDeletion : call.command.deletion call.now = some deletion) :
    (∀ id row, db.memories.find? id = some row → next.memories.find? id = none →
      deletion.allows row = true ∧
      next.tombstones.find? id =
        some ⟨id, row.provenance, row.accessPolicy, deletion.deletedAt, deletion.deletedBy⟩ ∧
      next.auditsOf id = db.auditsOf id ++ deletion.audit.toList ∧
      (∀ entity ∈ next.entities, entity.memoryId ≠ id) ∧
      (∀ membership ∈ next.memoryContexts, membership.memoryId ≠ id) ∧
      next.metadata.find? id = none ∧ next.embeddingMap.find? id = none ∧
      ∀ mapping, db.embeddingMap.find? id = some mapping →
        next.embeddings.contains mapping.vecRowid = false) ∧
    (∀ id, (db.memories.find? id = none ∨ next.memories.find? id ≠ none) →
      next.memories.find? id =
        (db.memories.find? id).map (fun row => row.unlinked (db.removedBy next)) ∧
      next.trail id = db.trail id) ∧
    ∀ vector ∈ next.embeddings, ∃ mapping ∈ next.embeddingMap, mapping.vecRowid = vector.rowid ∧
      next.memories.contains mapping.memoryId = true := by
  have preserved : ∀ state call next, IndexOk state → storeStep state call = some next →
      IndexOk next := fun _ _ _ holds stepEq => (storeStep_sustains stepEq holds).1
  have indexOk : IndexOk db := run_invariant preserved (indexOk_of_openIndex openRan) runEq
  obtain ⟨nextOk, removes⟩ :=
    storeStep_within (deletes_body isDeletion call.handle) stepEq indexOk
  refine ⟨?_, ?_, ?_⟩
  · intro id row found missing
    have sameId := Table.find?_key found
    obtain ⟨allowed, trail⟩ := removes.gone id row found missing
    have attachments := congrArg MemoryTrail.attachments trail
    refine ⟨allowed, ?_, congrArg MemoryTrail.audits trail, ?_, ?_, ?_, ?_, ?_⟩
    · have buried := congrArg MemoryTrail.tombstone trail
      simp only [Deletion.leaves, sameId] at buried
      exact buried
    · have entities := congrArg Attachments.entities attachments
      intro entity entityMem same
      exact List.filter_eq_nil_iff.mp entities entity entityMem (decide_eq_true same)
    · have memberships := congrArg Attachments.memberships attachments
      intro membership membershipMem same
      exact List.filter_eq_nil_iff.mp memberships membership membershipMem (decide_eq_true same)
    · exact congrArg Attachments.metadata attachments
    · exact congrArg MemoryTrail.mapping trail
    · intro mapping mapped
      have sameMemory := Table.find?_key mapped
      have removed : db.removedBy next mapping.memoryId = true := by
        rw [sameMemory]
        exact Db.removedBy_eq_true_iff.mpr ⟨⟨row, found⟩, missing⟩
      exact removes.vectors mapping (Table.mem_of_find? mapped) removed
  · intro id stays
    exact removes.kept id (Db.removedBy_eq_false_iff.mpr stays)
  · intro vector vectorMem
    obtain ⟨mapping, mappingMem, sameRowid⟩ := nextOk.named vector vectorMem
    exact ⟨mapping, mappingMem, sameRowid, (nextOk.mapped mapping mappingMem).1⟩

end Runs

theorem uniqueVectors_empty :
    ((Db.empty 1).embeddingMap.rows.map EmbeddingMapRow.vecRowid).Nodup := by
  decide

/-- An empty database file. -/
def emptyFile : IndexFile where
  db := Db.empty 1
  uniqueVectors := uniqueVectors_empty
  legacyMap := none

/-- Store a memory, and store a second one that supersedes it. -/
def supersedingCalls : List StoreCall :=
  [⟨⟨1, none⟩, 0, .store ⟨Memory.plain ⟨1⟩ "agent" "old" 0, none⟩ none⟩,
    ⟨⟨1, none⟩, 1, .storeWithSupersession ⟨Memory.plain ⟨2⟩ "agent" "new" 1, none⟩ ⟨1⟩ none⟩]

/-- Delete the second memory. -/
def deleteSuperseding : StoreCall :=
  ⟨⟨1, none⟩, 2, .deleteAuthorized ⟨2⟩ "agent" none⟩

theorem deletions_whole_superseding :
    ∃ opened db next, openIndex emptyFile = .ok opened ∧
      @run _ _ (@storeStep asciiHost) opened supersedingCalls = some db ∧
      @storeStep asciiHost db deleteSuperseding = some next ∧
      next.tombstones.find? ⟨2⟩ =
        some ⟨⟨2⟩, (Memory.plain ⟨2⟩ "agent" "new" 1).provenance,
          (Memory.plain ⟨2⟩ "agent" "new" 1).accessPolicy, 2, some "agent"⟩ :=
  ⟨_, _, _, rfl, rfl, rfl,
    ((@deletions_whole asciiHost emptyFile _ _ _ supersedingCalls deleteSuperseding
      ⟨2, some "agent", some "agent", none⟩ rfl rfl rfl rfl).1 ⟨2⟩ _ rfl rfl).2.1⟩

/-- Deleting a memory changes the memory that it superseded. -/
theorem deletion_unlinks_superseded :
    ∃ opened db next row, openIndex emptyFile = .ok opened ∧
      @run _ _ (@storeStep asciiHost) opened supersedingCalls = some db ∧
      @storeStep asciiHost db deleteSuperseding = some next ∧
      db.memories.find? ⟨1⟩ = some row ∧ row.supersededBy = some ⟨2⟩ ∧
      next.memories.find? ⟨1⟩ =
        some { row with supersededBy := none, recordRevision := row.recordRevision + 1 } :=
  ⟨_, _, _, _, rfl, rfl, rfl, rfl, rfl, rfl⟩

end LocalHold
