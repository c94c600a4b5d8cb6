import LocalHold.Store.AccessPredicates
import LocalHold.Store.Supersession

/-!
# What a deleted memory leaves behind

A memory disappears only by a deletion, which first writes a tombstone with the
provenance and the access policy of the memory.  A reader therefore sees a
tombstone at the level at which it saw the memory.
-/

namespace LocalHold

open Relational Transition Transition.Txn

/-! ## Memories that stay -/

/-- No memory disappears. -/
def MemoriesStay (db next : Db) : Prop :=
  ∀ id, next.memories.find? id = none → db.memories.find? id = none

instance : Std.Refl MemoriesStay :=
  ⟨fun _ _ absent => absent⟩

instance : IsTrans Db MemoriesStay :=
  ⟨fun _ _ _ early late id absent => early id (late id absent)⟩

section Staying

variable {α : Type} {body : StoreM α}

theorem LeavesLinks.stays (inner : LeavesLinks body) : Within MemoriesStay body :=
  inner.mono fun db next same id absent => by
    rw [← Db.link_eq_none_iff, ← (Prod.mk.inj same).2, Db.link_eq_none_iff]
    exact absent

theorem LeavesMemories.stays (inner : LeavesMemories body) : Within MemoriesStay body :=
  inner.mono fun db next same id absent => by
    simp only [Keeps, Db.memoryTables, Prod.mk.injEq] at same
    rw [← same.1]
    exact absent

theorem stays_updateMemoryWhere (id : MemoryId) (guard : MemoryRow → Bool)
    (change : MemoryRow → MemoryRow) (keepsKey : ∀ row, (change row).id = row.id) :
    Within MemoriesStay (updateMemoryWhere id guard change keepsKey) := by
  refine Within.bind Within.reads fun _ => ?_
  refine Within.bind (Within.writes fun db other absent => ?_) fun _ => Within.pure
  rw [Table.find?_updateWhere, Option.map_eq_none_iff] at absent
  exact absent

theorem stays_markSuperseded (oldId newId : MemoryId) :
    Within MemoriesStay (markSuperseded oldId newId) := by
  refine Within.bind Within.reads fun found => ?_
  cases found with
  | none => exact Within.pure
  | some existing =>
      refine Within.bind Within.require fun _ => ?_
      refine Within.bind (stays_updateMemoryWhere _ _ _ _) fun _ => ?_
      exact Within.bind Within.require fun _ => Within.pure

theorem stays_insertPrepared (dimensions : Nat) (item : MemoryWithEmbedding) :
    Within MemoriesStay (insertPrepared dimensions item) := by
  intro db value next ran id absent
  obtain ⟨_, links⟩ := link_insertPrepared ran
  have gone := Db.link_eq_none_iff.mpr absent
  rw [links] at gone
  split at gone
  · cases gone
  · exact Db.link_eq_none_iff.mp gone

theorem stays_insertPreparedWithSupersession (dimensions : Nat) (item : MemoryWithEmbedding)
    (supersedes : Option MemoryId) (audit : Option AuditDraft) :
    Within MemoriesStay (insertPreparedWithSupersession dimensions item supersedes audit) := by
  refine Within.bind (Within.onSome fun _ _ => (readsOnly_validateSupersededExists _).within)
    fun _ => ?_
  refine Within.bind (stays_insertPrepared _ _) fun _ => ?_
  refine Within.bind (Within.onSome fun _ _ => ?_) fun _ => ?_
  · exact Within.bind (stays_markSuperseded _ _) fun _ => Within.pure
  · exact Within.onSome fun _ _ => (quiet_insertAuditDraft _ _).leavesLinks.stays

theorem stays_storeItemWithMetadata (dimensions : Nat) (item : MemoryWithEmbedding)
    (supersedes : Option MemoryId) (metadata : MemoryMetadata) (audit : Option AuditDraft)
    (now : Instant) :
    Within MemoriesStay (storeItemWithMetadata dimensions item supersedes metadata audit now) :=
  Within.bind (stays_insertPreparedWithSupersession _ _ _ _) fun _ =>
    (quiet_upsertMetadata _ _).leavesLinks.stays

theorem stays_markSupersededByAuthorized (id supersededBy : MemoryId) (principal : String)
    (audit : Option AuditDraft) :
    Within MemoriesStay (markSupersededByAuthorized id supersededBy principal audit) := by
  refine Within.bind Within.reads fun found => ?_
  cases found with
  | none => exact Within.pure
  | some existing =>
      dsimp only
      split
      · refine Within.bind (stays_markSuperseded _ _) fun _ => ?_
        exact Within.bind (Within.onSome fun _ _ => (quiet_insertAuditDraft _ _).leavesLinks.stays)
          fun _ => Within.pure
      · exact Within.pure

theorem stays_markSupersededIfUnchanged (member representative : ConsolidationSnapshot)
    (principal : String) (audit : AuditDraft) :
    Within MemoriesStay (markSupersededIfUnchanged member representative principal audit) := by
  refine Within.bind Within.require fun _ => ?_
  refine Within.bind Within.require fun _ => ?_
  refine Within.bind Within.reads fun found => ?_
  cases found with
  | none => exact Within.pure
  | some existingMember =>
      refine Within.bind Within.reads fun found => ?_
      cases found with
      | none => exact Within.pure
      | some existingRepresentative =>
          dsimp only
          split
          · refine Within.bind Within.reads fun _ => ?_
            refine Within.bind Within.reads fun _ => ?_
            refine Within.bind Within.require fun _ => ?_
            refine Within.bind (stays_markSuperseded _ _) fun _ => ?_
            exact Within.bind (Within.onSome fun _ _ => (quiet_insertAuditDraft _ _).leavesLinks.stays)
              fun _ => Within.pure
          · exact Within.pure

variable [Host]

theorem stays_storeGovernedItem (dimensions : Nat) (request : GovernedItem) (principal : String)
    (now : Instant) :
    Within MemoriesStay (storeGovernedItem dimensions request principal now) :=
  Within.bind (stays_storeItemWithMetadata _ _ _ _ _ _) fun _ =>
    (leavesLinks_insertMemoryContexts _ _ _ _ _ _ _).stays

theorem stays_applyReassignScope (newId : ContextId) (fromScope toScope : String)
    (origin : Option String) (principal : String) (audit : Option AuditDraft) (now : Instant) :
    Within MemoriesStay
      (applyReassignScope newId fromScope toScope origin principal audit now) := by
  refine Within.bind Within.reads fun _ => ?_
  split
  · exact Within.pure
  · refine Within.bind (leavesMemories_resolveOrCreatePrivateLegacyContext _ _ _ _).stays
      fun _ => ?_
    refine Within.bind Within.reads fun _ => ?_
    refine Within.bind Within.expect fun _ => ?_
    refine Within.bind (Within.forM fun _ _ => ?_) fun _ => Within.pure
    exact (leavesLinks_reassignMemory _ _ _ _ _ _ _).stays

end Staying

/-! ## Memories that disappear -/

/-- A tombstone carries the authorization of a memory. -/
def MemoryTombstone.Matches (tombstone : MemoryTombstone) (row : MemoryRow) : Prop :=
  tombstone.provenance = row.provenance ∧ tombstone.accessPolicy = row.accessPolicy

/-- Every memory stays with its authorization or leaves it in a tombstone, and
the tombstones of absent memories stay. -/
structure Entombs (db next : Db) : Prop where
  memories : ∀ id row, db.memories.find? id = some row →
    (∃ kept, next.memories.find? id = some kept ∧ kept.provenance = row.provenance ∧
      kept.accessPolicy = row.accessPolicy) ∨
    (next.memories.find? id = none ∧
      ∃ tombstone, next.tombstones.find? id = some tombstone ∧ tombstone.Matches row)
  absent : ∀ id, db.memories.find? id = none → next.memories.find? id = none ∧
    next.tombstones.find? id = db.tombstones.find? id

/-- Every memory that disappears leaves its authorization in a tombstone. -/
def LeavesTombstones (db next : Db) : Prop :=
  ∀ id row, db.memories.find? id = some row → next.memories.find? id = none →
    ∃ tombstone, next.tombstones.find? id = some tombstone ∧ tombstone.Matches row

instance : Std.Refl LeavesTombstones :=
  ⟨fun _ _ _ found absent => by
    rw [found] at absent
    cases absent⟩

instance : Std.Refl Entombs :=
  ⟨fun _ => ⟨fun _ row found => Or.inl ⟨row, found, rfl, rfl⟩, fun _ absent => ⟨absent, rfl⟩⟩⟩

instance : IsTrans Db Entombs :=
  ⟨fun _ middle _ early late => by
    constructor
    · intro id row found
      rcases early.memories id row found with ⟨kept, keptFound, provenance, policy⟩ |
        ⟨gone, tombstone, buried, provenance, policy⟩
      · rcases late.memories id kept keptFound with ⟨later, laterFound, same⟩ |
          ⟨gone, tombstone, buried, same⟩
        · exact Or.inl ⟨later, laterFound, same.1.trans provenance, same.2.trans policy⟩
        · exact Or.inr ⟨gone, tombstone, buried, same.1.trans provenance, same.2.trans policy⟩
      · obtain ⟨stillGone, sameTombstone⟩ := late.absent id gone
        exact Or.inr ⟨stillGone, tombstone, sameTombstone.trans buried, provenance, policy⟩
    · intro id absent
      obtain ⟨gone, sameEarly⟩ := early.absent id absent
      obtain ⟨stillGone, sameLate⟩ := late.absent id gone
      exact ⟨stillGone, sameLate.trans sameEarly⟩⟩

theorem MemoriesStay.leavesTombstones {db next : Db} (stay : MemoriesStay db next) :
    LeavesTombstones db next := by
  intro id row found absent
  rw [stay id absent] at found
  cases found

theorem Entombs.leavesTombstones {db next : Db} (entombs : Entombs db next) :
    LeavesTombstones db next := by
  intro id row found absent
  rcases entombs.memories id row found with ⟨kept, keptFound, _⟩ | ⟨_, buried⟩
  · rw [absent] at keptFound
    cases keptFound
  · exact buried

/-- What deleting a present memory does to the memories and the tombstones. -/
theorem entombMemory_present {memory : Memory} {deletedAt : Instant} {deletedBy : Option String}
    {db next : Db} {value : Bool} (present : db.memories.contains memory.id = true)
    (ran : entombMemory memory deletedAt deletedBy db = .ok (value, next)) :
    (∀ id, next.memories.find? id = if id = memory.id then none else
      (db.memories.find? id).map fun row =>
        if row.supersededBy = some memory.id then
          { row with supersededBy := none, recordRevision := row.recordRevision + 1 }
        else row) ∧
    next.tombstones = db.tombstones.upsert
      ⟨memory.id, memory.provenance, memory.accessPolicy, deletedAt, deletedBy⟩ := by
  obtain ⟨_, buried, buryRan, ran⟩ := bind_eq_ok.mp ran
  have written := (Prod.mk.inj (writes_eq_ok.mp buryRan)).2
  have memories : buried.memories = db.memories := by rw [← written]
  have tombstones : buried.tombstones = db.tombstones.upsert
      ⟨memory.id, memory.provenance, memory.accessPolicy, deletedAt, deletedBy⟩ := by
    rw [← written]
  have ran := of_reads_bind ran
  split at ran
  · obtain ⟨_, dropped, dropRan, done⟩ := bind_eq_ok.mp ran
    cases writes_eq_ok.mp dropRan
    cases pure_eq_ok.mp done
    constructor
    · intro id
      rw [Db.find?_dropMemory, memories]
    · rw [← tombstones]
      simp only [Db.dropMemory, Db.dropEmbedding]
      split <;> rfl
  · rename_i missing
    rw [memories] at missing
    exact absurd present missing

/-- Deleting a memory under its own authorization entombs it. -/
theorem entombs_entombMemory {memory : Memory} {row : MemoryRow} {deletedAt : Instant}
    {deletedBy : Option String} {db next : Db} {value : Bool}
    (found : db.memories.find? memory.id = some row)
    (provenance : memory.provenance = row.provenance)
    (policy : memory.accessPolicy = row.accessPolicy)
    (ran : entombMemory memory deletedAt deletedBy db = .ok (value, next)) : Entombs db next := by
  have present : db.memories.contains memory.id = true := by
    rw [Table.contains, found]
    rfl
  obtain ⟨memories, tombstones⟩ := entombMemory_present present ran
  constructor
  · intro id other otherFound
    by_cases here : id = memory.id
    · subst here
      rw [found] at otherFound
      cases otherFound
      refine Or.inr ⟨by rw [memories, if_pos rfl],
        ⟨memory.id, memory.provenance, memory.accessPolicy, deletedAt, deletedBy⟩, ?_,
        provenance, policy⟩
      rw [tombstones, Table.find?_upsert]
      exact if_pos rfl
    · left
      rw [memories, if_neg here, otherFound]
      refine ⟨_, rfl, ?_⟩
      dsimp only
      split
      · exact ⟨rfl, rfl⟩
      · exact ⟨rfl, rfl⟩
  · intro id absent
    have different : id ≠ memory.id := by
      rintro rfl
      rw [found] at absent
      cases absent
    constructor
    · rw [memories, if_neg different, absent]
      rfl
    · rw [tombstones, Table.find?_upsert]
      exact if_neg different

theorem entombs_of_keepsMemorySide {α : Type} {body : StoreM α}
    (inner : Within (Keeps Db.memorySide) body) : Within Entombs body :=
  inner.mono fun db next same => by
    simp only [Keeps, Db.memorySide, Prod.mk.injEq] at same
    constructor
    · intro id row found
      rw [same.1]
      exact Or.inl ⟨row, found, rfl, rfl⟩
    · intro id absent
      rw [same.1, same.2.2.2.2]
      exact ⟨absent, rfl⟩

theorem entombs_auditAfter {audit : Option AuditDraft} {id : MemoryId} :
    Within Entombs (onSome audit (insertAuditDraft id)) :=
  Within.onSome fun _ _ => entombs_of_keepsMemorySide (Within.writes fun _ => rfl)

/-! ## Deletions -/

/-- Deleting a fetched memory, if it was found, entombs it. -/
theorem entombs_fetched {α : Type} {id : MemoryId} {rest : Option Memory → StoreM α}
    (missing : Within Entombs (rest none))
    (present : ∀ db row value next, db.memories.find? id = some row →
      rest (some row.toMemory) db = .ok (value, next) → Entombs db next) :
    Within Entombs (fetchMemoryById id >>= rest) := by
  intro db value next ran
  have ran := of_reads_bind ran
  cases found : db.memories.find? id with
  | none =>
      rw [found] at ran
      exact missing ran
  | some row =>
      rw [found] at ran
      exact present db row value next found ran

theorem entombs_applyDelete (id : MemoryId) (deletedAt : Instant) :
    Within Entombs (applyDelete id deletedAt) := by
  refine entombs_fetched Within.pure fun db row value next found ran => ?_
  have sameId := Table.find?_key found
  subst sameId
  exact entombs_entombMemory found rfl rfl ran

/-- Deleting a fetched memory and recording it in the audit log. -/
theorem entombs_entombThen {α : Type} {row : MemoryRow} {deletedAt : Instant}
    {deletedBy : Option String} {rest : Bool → StoreM α} {db next : Db} {value : α}
    (found : db.memories.find? row.id = some row)
    (after : ∀ affected, Within Entombs (rest affected))
    (ran : (entombMemory row.toMemory deletedAt deletedBy >>= rest) db = .ok (value, next)) :
    Entombs db next := by
  obtain ⟨affected, middle, entombed, ran⟩ := bind_eq_ok.mp ran
  exact IsTrans.trans db middle next (entombs_entombMemory found rfl rfl entombed)
    (after affected ran)

theorem entombs_deleteAuthorized (id : MemoryId) (principal : String)
    (audit : Option AuditDraft) (deletedAt : Instant) :
    Within Entombs (deleteAuthorized id principal audit deletedAt) := by
  refine entombs_fetched Within.pure fun db row value next found ran => ?_
  have sameId := Table.find?_key found
  subst sameId
  dsimp only at ran
  split at ran
  · refine entombs_entombThen found (fun _ => ?_) ran
    exact Within.bind entombs_auditAfter fun _ => Within.pure
  · exact Within.pure ran

theorem entombs_deleteAuthorizedIfUnmodified (id : MemoryId) (expectedRevision : Int)
    (principal : String) (audit : AuditDraft) (deletedAt : Instant) :
    Within Entombs (deleteAuthorizedIfUnmodified id expectedRevision principal audit deletedAt) := by
  refine entombs_fetched Within.pure fun db row value next found ran => ?_
  have sameId := Table.find?_key found
  subst sameId
  dsimp only at ran
  split at ran
  · have ran := (of_require_bind ran).2
    refine entombs_entombThen found (fun _ => ?_) ran
    refine Within.bind Within.require fun _ => ?_
    refine Within.bind (entombs_of_keepsMemorySide (Within.writes fun _ => rfl)) fun _ => ?_
    exact Within.pure
  · exact Within.pure ran

theorem entombs_bulkDeleteIds (ids : List MemoryId) (principal : String)
    (audit : Option AuditDraft) (deletedAt : Instant) :
    Within Entombs (bulkDeleteIds ids principal audit deletedAt) := by
  refine Within.foldlM fun outcome id _ => ?_
  refine entombs_fetched Within.pure fun db row value next found ran => ?_
  have sameId := Table.find?_key found
  subst sameId
  dsimp only at ran
  split at ran
  · refine entombs_entombThen found (fun _ => ?_) ran
    exact Within.bind entombs_auditAfter fun _ => Within.pure
  · exact Within.pure ran

/-- The authorization of a row is the one stored under its identifier. -/
def Db.Authorizes (db : Db) (row : MemoryRow) : Prop :=
  ∃ current, db.memories.find? row.id = some current ∧
    current.provenance = row.provenance ∧ current.accessPolicy = row.accessPolicy

/-- One expired memory is entombed, and the other memories stay. -/
theorem entombs_evictOne {scope : ExpiredCleanupScope} {audit : AuditDraft} {now : Instant}
    {row : MemoryRow} {db next : Db} {value : Bool} (authorizes : db.Authorizes row)
    (ran : evictOne scope audit now row db = .ok (value, next)) :
    Entombs db next ∧
      ∀ other : MemoryRow, other.id ≠ row.id → db.Authorizes other → next.Authorizes other := by
  obtain ⟨current, found, provenance, policy⟩ := authorizes
  unfold evictOne at ran
  split at ran
  · cases pure_eq_ok.mp ran
    exact ⟨Std.Refl.refl db, fun _ _ kept => kept⟩
  · obtain ⟨affected, middle, entombed, ran⟩ := bind_eq_ok.mp ran
    have present : db.memories.contains row.toMemory.id = true := by
      rw [Table.contains]
      exact Option.isSome_iff_exists.mpr ⟨current, found⟩
    have buried : Entombs db middle :=
      entombs_entombMemory found provenance.symm policy.symm entombed
    obtain ⟨memories, _⟩ := entombMemory_present present entombed
    have audited : Within (Keeps Db.memorySide) (do
        onSome (if affected then some audit else none) (insertAuditDraft row.id)
        return affected) :=
      Within.bind (Within.onSome fun _ _ => Within.writes fun _ => rfl) fun _ => Within.pure
    refine ⟨IsTrans.trans db middle next buried
      (entombs_of_keepsMemorySide audited ran), fun other different kept => ?_⟩
    have sameMemories : next.memories = middle.memories := by
      have same := audited ran
      simp only [Keeps, Db.memorySide, Prod.mk.injEq] at same
      exact same.1
    obtain ⟨held, heldFound, heldProvenance, heldPolicy⟩ := kept
    have isKept : middle.memories.find? other.id = some (if held.supersededBy = some row.id then
        { held with supersededBy := none, recordRevision := held.recordRevision + 1 }
        else held) := by
      rw [memories, heldFound]
      exact if_neg different
    rw [Db.Authorizes, sameMemories]
    refine ⟨_, isKept, ?_⟩
    split
    · exact ⟨heldProvenance, heldPolicy⟩
    · exact ⟨heldProvenance, heldPolicy⟩

theorem entombs_evictRows {scope : ExpiredCleanupScope} {audit : AuditDraft} {now : Instant}
    {rows : List MemoryRow} (distinct : (rows.map (·.id)).Nodup) {db next : Db}
    {value : List Bool} (authorizes : ∀ row ∈ rows, db.Authorizes row)
    (ran : rows.mapM (evictOne scope audit now) db = .ok (value, next)) : Entombs db next := by
  induction rows generalizing db value with
  | nil =>
      cases pure_eq_ok.mp ran
      exact Std.Refl.refl _
  | cons row rest inductionHypothesis =>
      rw [List.map_cons, List.nodup_cons] at distinct
      rw [List.mapM_cons] at ran
      obtain ⟨_, middle, evicted, ran⟩ := bind_eq_ok.mp ran
      obtain ⟨_, last, restRan, done⟩ := bind_eq_ok.mp ran
      cases pure_eq_ok.mp done
      obtain ⟨early, others⟩ := entombs_evictOne (authorizes row List.mem_cons_self) evicted
      refine IsTrans.trans db middle next early
        (inductionHypothesis distinct.2 (fun other otherMem => ?_) restRan)
      refine others other ?_ (authorizes other (List.mem_cons_of_mem row otherMem))
      intro same
      exact distinct.1 (List.mem_map.mpr ⟨other, otherMem, same⟩)

section Commands

variable [Host]

theorem entombs_evictExpired (scope : ExpiredCleanupScope) (audit : AuditDraft) (now : Instant) :
    Within Entombs (evictExpired scope audit now) := by
  intro db value next ran
  have ran := of_reads_bind ran
  obtain ⟨_, _, evicted, done⟩ := bind_eq_ok.mp ran
  cases pure_eq_ok.mp done
  refine entombs_evictRows ?_ (fun row rowMem => ?_) evicted
  · rw [Db.expiredRows, ((List.mergeSort_perm _ _).map _).nodup_iff]
    exact db.memories.nodup.sublist (List.filter_sublist.map _)
  · rw [Db.expiredRows, List.mem_mergeSort, Table.mem_select_iff] at rowMem
    exact ⟨row, Table.mem_iff_find?.mp rowMem.1, rfl, rfl⟩

/-! ## Every command -/

variable {α : Type} {body : StoreM α}

omit [Host] in
theorem tombs_of_stays (inner : Within MemoriesStay body) : Within LeavesTombstones body :=
  inner.mono fun _ _ => MemoriesStay.leavesTombstones

omit [Host] in
theorem tombs_discard_of_stays (inner : Within MemoriesStay body) :
    Within LeavesTombstones (StoreCommand.discard body) :=
  within_discard (tombs_of_stays inner)

omit [Host] in
theorem tombs_discard_of_entombs (inner : Within Entombs body) :
    Within LeavesTombstones (StoreCommand.discard body) :=
  within_discard (inner.mono fun _ _ => Entombs.leavesTombstones)

omit [Host] in
theorem tombs_of_leavesLinks (inner : LeavesLinks body) : Within LeavesTombstones body :=
  tombs_of_stays inner.stays

omit [Host] in
theorem tombs_of_leavesMemories (inner : LeavesMemories body) : Within LeavesTombstones body :=
  tombs_of_stays inner.stays

/-- Every command leaves a tombstone for each memory that disappears. -/
theorem tombs_body (command : StoreCommand) (handle : StoreHandle) (now : Instant) :
    Within LeavesTombstones (command.body handle now) := by
  cases command with
  | store item audit =>
      refine tombs_discard_of_stays (Within.bind (stays_insertPrepared _ _) fun _ => ?_)
      exact Within.bind (Within.onSome fun _ _ => (quiet_insertAuditDraft _ _).leavesLinks.stays)
        fun _ => Within.pure
  | storeWithSupersession item supersedes audit =>
      exact tombs_discard_of_stays
        (Within.bind (stays_insertPreparedWithSupersession _ _ _ _) fun _ => Within.pure)
  | storeWithMetadata item supersedes metadata audit =>
      refine tombs_discard_of_stays (Within.bind Within.require fun _ => ?_)
      exact Within.bind (stays_storeItemWithMetadata _ _ _ _ _ _) fun _ => Within.pure
  | storeWithMetadataContexts request =>
      refine tombs_discard_of_stays
        (Within.bind (readsOnly_validateGovernedItem request).within fun _ => ?_)
      exact Within.bind (stays_storeGovernedItem _ _ _ _) fun _ => Within.pure
  | storeBatch items audits =>
      refine tombs_discard_of_stays
        (Within.bind (Within.onSome fun _ _ => Within.require) fun _ => ?_)
      refine Within.bind (Within.forM fun entry entryMem => ?_) fun _ => Within.pure
      exact Within.bind (stays_insertPrepared _ _) fun _ =>
        Within.onSome fun _ _ => (quiet_insertAuditDraft _ _).leavesLinks.stays
  | storeBatchWithSupersession items supersedes audits =>
      refine tombs_discard_of_stays (Within.bind Within.require fun _ => ?_)
      refine Within.bind (Within.onSome fun _ _ => Within.require) fun _ => ?_
      refine Within.bind (Within.forM fun entry entryMem => ?_) fun _ => Within.pure
      exact stays_insertPreparedWithSupersession _ _ _ _
  | storeBatchWithMetadata items supersedes metadata audits =>
      refine tombs_discard_of_stays (Within.bind Within.require fun _ => ?_)
      refine Within.bind Within.require fun _ => ?_
      refine Within.bind (Within.onSome fun _ _ => Within.require) fun _ => ?_
      refine Within.bind (Within.forM fun _ _ => Within.require) fun _ => ?_
      refine Within.bind (Within.forM fun entry entryMem => ?_) fun _ => Within.pure
      exact stays_storeItemWithMetadata _ _ _ _ _ _
  | storeBatchWithMetadataContexts items supersedes metadata contextIds audits contextAudits =>
      refine tombs_discard_of_stays (Within.bind Within.require fun _ => ?_)
      refine Within.bind (Within.mapM fun _ _ => (readsOnly_validateGovernedItem _).within)
        fun _ => ?_
      refine Within.bind (Within.forM fun entry entryMem => ?_) fun _ => Within.pure
      exact stays_storeGovernedItem _ _ _ _
  | update id changes =>
      exact within_discard (tombs_of_leavesLinks (quiet_applyUpdate _ _ _).leavesLinks)
  | updateAuthorized id changes principal audit =>
      exact within_discard (tombs_of_leavesLinks (quiet_updateAuthorized _ _ _ _ _).leavesLinks)
  | updateAuthorizedWithMetadata id changes patch principal audit =>
      exact within_discard
        (tombs_of_leavesLinks (quiet_updateAuthorizedWithMetadata _ _ _ _ _ _).leavesLinks)
  | updateAuthorizedWithMetadataContexts id changes patch contextIds principal audit
      contextAudit =>
      exact within_discard (tombs_of_leavesLinks
        (leavesLinks_updateAuthorizedWithMetadataContexts _ _ _ _ _ _ _ _))
  | updateIfUnmodified id expectedRevision changes patch contextIds embedding principal audit
      contextAudit =>
      exact within_discard (tombs_of_leavesLinks
        (leavesLinks_updateAuthorizedIfUnmodified _ _ _ _ _ _ _ _ _ _ _ _))
  | bulkUpdate ids changes principal audit =>
      exact within_discard (tombs_of_leavesLinks (quiet_bulkUpdateIds _ _ _ _ _).leavesLinks)
  | recordSearchImpression ids =>
      exact tombs_of_leavesLinks (quiet_recordSearchImpression _ _).leavesLinks
  | recordMemoryUse decayMass ids principal eventWeight =>
      exact within_discard (tombs_of_leavesLinks (quiet_recordMemoryUse _ _ _ _ _).leavesLinks)
  | writeAuditEntry id audit => exact tombs_of_leavesLinks (quiet_insertAuditDraft _ _).leavesLinks
  | claimForReembed principal limit token =>
      exact within_discard (tombs_of_leavesLinks (quiet_claimForReembed _ _ _ _).leavesLinks)
  | releaseEmbeddingClaim id expectedRevision token =>
      exact tombs_discard_of_stays (stays_updateMemoryWhere _ _ _ _)
  | setEmbedding id embedding expectedRevision =>
      exact tombs_of_leavesLinks (quiet_setEmbedding _ _ _ _ _).leavesLinks
  | verifyEmbeddingProfile profile =>
      exact tombs_of_leavesLinks (quiet_verifyEmbeddingProfile _).leavesLinks
  | reindexEmbeddings profile => exact tombs_of_leavesLinks (quiet_reindexEmbeddings _).leavesLinks
  | upsertMetadata metadata audit =>
      exact tombs_of_leavesLinks (quiet_upsertMetadataAudited _ _ _).leavesLinks
  | migrateMetadata dryRun audit =>
      exact within_discard (tombs_of_leavesLinks (quiet_migrateMetadata _ _ _).leavesLinks)
  | replaceMemoryContexts id contextIds principal audit =>
      exact within_discard (tombs_of_leavesLinks (leavesLinks_replaceMemoryContexts _ _ _ _ _))
  | delete id => exact tombs_discard_of_entombs (entombs_applyDelete _ _)
  | deleteAuthorized id principal audit =>
      exact tombs_discard_of_entombs (entombs_deleteAuthorized _ _ _ _)
  | deleteIfUnmodified id expectedRevision principal audit =>
      exact tombs_discard_of_entombs (entombs_deleteAuthorizedIfUnmodified _ _ _ _ _)
  | bulkDelete ids principal audit =>
      exact tombs_discard_of_entombs (entombs_bulkDeleteIds _ _ _ _)
  | evictExpired scope audit => exact tombs_discard_of_entombs (entombs_evictExpired _ _ _)
  | markSupersededBy id supersededBy =>
      exact tombs_discard_of_stays (stays_markSuperseded _ _)
  | markSupersededByAuthorized id supersededBy principal audit =>
      exact tombs_discard_of_stays (stays_markSupersededByAuthorized _ _ _ _)
  | markSupersededIfUnchanged member representative principal audit =>
      exact tombs_discard_of_stays (stays_markSupersededIfUnchanged _ _ _ _)
  | reassignScope newId fromScope toScope origin principal audit =>
      exact tombs_discard_of_stays (stays_applyReassignScope _ _ _ _ _ _ _)
  | registerScope newId scope principal =>
      exact tombs_of_leavesMemories (leavesMemories_registerLegacyScopeContext _ _ _ _)
  | createContext draft audit =>
      exact within_discard (tombs_of_leavesMemories (leavesMemories_createContext _ _ _))
  | setContextParent id parentId principal audit =>
      exact tombs_of_leavesMemories (leavesMemories_setContextParent _ _ _ _ _)
  | setContextLifecycle id lifecycle principal audit =>
      exact tombs_of_leavesMemories (leavesMemories_setContextLifecycle _ _ _ _ _)
  | grantContextUse id grantee principal audit =>
      exact tombs_of_leavesMemories (leavesMemories_grantContextUse _ _ _ _ _)
  | revokeContextUse id grantee principal audit =>
      exact tombs_of_leavesMemories (leavesMemories_revokeContextUse _ _ _ _ _)
  | replaceContextGrants id grantees principal audit =>
      exact tombs_of_leavesMemories (leavesMemories_replaceContextGrants _ _ _ _ _)
  | updateContextDefinition id patch principal audit =>
      exact tombs_of_leavesMemories (leavesMemories_updateContextDefinition _ _ _ _ _)
  | upsertContextKind kind displayName enabled principal audit =>
      exact tombs_of_leavesMemories (leavesMemories_upsertContextKind _ _ _ _ _ _)
  | upsertContextKindPolicy layer policyPrincipal kind policy principal audit =>
      exact tombs_of_leavesMemories (leavesMemories_upsertContextKindPolicy _ _ _ _ _ _ _)
  | upsertContextAnchorPolicy anchorId policyPrincipal policy principal audit =>
      exact tombs_of_leavesMemories (leavesMemories_upsertContextAnchorPolicy _ _ _ _ _ _)
  | rollbackUnreferencedLegacyContext id principal =>
      exact within_discard
        (tombs_of_leavesMemories (leavesMemories_rollbackUnreferencedLegacyContext _ _))

/-- A memory that disappears in a step leaves its authorization in a tombstone. -/
theorem storeStep_leavesTombstones {db next : Db} {call : StoreCall}
    (step : storeStep db call = some next) : LeavesTombstones db next :=
  storeStep_within (tombs_body _ _ _) step

/-- The write rule of the three statements is the write rule of the program, the
read rule of the context store is its read rule, a deleted memory leaves a
tombstone of its own level, no row that an anonymous caller may read is filtered
out, and whoever may write a memory reads all of it. -/
theorem access_rules_agree (row : MemoryRow) (caller : String) :
    ((reembedWriteCondition row.provenance.document row.accessPolicy.document
          (some caller)).accepts = row.toMemory.hasWriteAccess caller ∧
      (consolidationWriteCondition row.provenance.document row.accessPolicy.document
          caller).accepts = row.toMemory.hasWriteAccess caller ∧
      (purgeWriteCondition row.provenance.document row.accessPolicy.document
          (some caller)).accepts = row.toMemory.hasWriteAccess caller) ∧
    (memoryReadAllowed row.provenance row.accessPolicy caller = true ↔
      row.toMemory.checkAccessLevel (some caller) ≠ .denied) ∧
    (∀ (db next : Db) (call : StoreCall), storeStep db call = some next →
      db.memories.find? row.id = some row → next.memories.find? row.id = none →
      ∃ tombstone, next.tombstones.find? row.id = some tombstone ∧
        ∀ reader, tombstone.checkAccessLevel reader = row.toMemory.checkAccessLevel reader) ∧
    (row.toMemory.checkAccessLevel none ≠ .denied →
      (anonymousCondition row.accessPolicy.document).accepts = true) ∧
    (isBlank caller = false → row.toMemory.hasWriteAccess caller = true →
      row.toMemory.checkAccessLevel (some caller) = .full) := by
  refine ⟨⟨?_, ?_, ?_⟩, ?_, ?_, ?_, ?_⟩
  · exact accepts_reembedWriteCondition _ _ _
  · exact accepts_sqlWriteCondition _ _ _
  · exact accepts_purgeWriteCondition _ _ _
  · exact memoryReadAllowed_iff _ _ _
  · intro db next call step found gone
    obtain ⟨tombstone, buried, provenance, policy⟩ :=
      storeStep_leavesTombstones step row.id row found gone
    refine ⟨tombstone, buried, fun reader => ?_⟩
    rw [MemoryTombstone.checkAccessLevel, provenance, policy]
    rfl
  · exact accepts_anonymousCondition
  · exact accessLevel_full_of_writeAccess

omit [Host] in
/-- A redacted memory of one owner. -/
def redactedNote : Memory :=
  { Memory.plain ⟨7⟩ "owner" "a note" 0 with
    accessPolicy := .redacted [.tags]
    provenance := { Provenance.default with sourceAgent := some "owner" } }

omit [Host] in
theorem access_rules_agree_deleted :
    ∃ db next row, @run _ _ (@storeStep asciiHost) (Db.empty 3)
        [⟨⟨3, none⟩, 0, .store ⟨redactedNote, none⟩ none⟩] = some db ∧
      @storeStep asciiHost db ⟨⟨3, none⟩, 1, .delete ⟨7⟩⟩ = some next ∧
      db.memories.find? ⟨7⟩ = some row ∧ row.toMemory.hasWriteAccess "owner" = true ∧
      (purgeWriteCondition row.provenance.document row.accessPolicy.document
        (some "owner")).accepts = true ∧
      ∃ tombstone, next.tombstones.find? ⟨7⟩ = some tombstone ∧
        tombstone.checkAccessLevel (some "other") = .redacted := by
  have ran : ∃ db, @run _ _ (@storeStep asciiHost) (Db.empty 3)
        [⟨⟨3, none⟩, 0, .store ⟨redactedNote, none⟩ none⟩] = some db ∧
      ∃ next, @storeStep asciiHost db ⟨⟨3, none⟩, 1, .delete ⟨7⟩⟩ = some next ∧
        next.memories.find? ⟨7⟩ = none ∧
      ∃ row, db.memories.find? ⟨7⟩ = some row ∧ row.id = ⟨7⟩ ∧
        row.toMemory.hasWriteAccess "owner" = true ∧
        row.toMemory.provenance = redactedNote.provenance ∧
        row.toMemory.accessPolicy = redactedNote.accessPolicy := by
    refine ⟨_, rfl, ?_⟩
    refine ⟨_, rfl, rfl, ?_⟩
    exact ⟨_, rfl, rfl, rfl, rfl, rfl⟩
  obtain ⟨db, stored, next, step, gone, row, found, own, writable, provenance, policy⟩ := ran
  have level : row.toMemory.checkAccessLevel (some "other") = .redacted := by
    rw [Memory.checkAccessLevel, provenance, policy]
    decide
  obtain ⟨⟨_, _, purge⟩, _, buried, _, _⟩ := @access_rules_agree asciiHost row "owner"
  obtain ⟨tombstone, tombFound, levels⟩ := buried db next _ step (own ▸ found) (own ▸ gone)
  refine ⟨db, next, row, stored, step, found, writable, purge.trans writable, tombstone, ?_, ?_⟩
  · rw [← own]
    exact tombFound
  · rw [levels, level]

end Commands

end LocalHold
