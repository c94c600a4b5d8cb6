import LocalHold.Store.LinkEffects

/-!
# Rules for commands that rewrite memory rows

Most commands rewrite columns of memory rows and write to tables that belong to
memories.  A relation that holds across rewrites which keep the leases, and
across writes to other tables than the memories and their metadata, holds
across all of these commands.
-/

namespace LocalHold

open Relational Transition Transition.Txn

/-! ## Leases -/

/-- The columns of the re-embed queue. -/
structure Lease where
  hasEmbedding : Int
  claimedAt : Option Instant
  token : Option String
deriving DecidableEq

/-- The queue columns of a row. -/
def MemoryRow.lease (row : MemoryRow) : Lease :=
  ⟨row.hasEmbedding, row.embeddingClaimedAt, row.embeddingClaimToken⟩

/-- A row goes to a later embedding revision, or it is embedded, or its lease
stays. -/
def LeaseKept (old new : MemoryRow) : Prop :=
  old.embeddingRevision < new.embeddingRevision ∨
    (old.embeddingRevision = new.embeddingRevision ∧
      (new.hasEmbedding = 1 ∨ new.lease = old.lease))

theorem LeaseKept.of_eq {old new : MemoryRow} (revision : new.embeddingRevision = old.embeddingRevision)
    (lease : new.lease = old.lease) : LeaseKept old new :=
  Or.inr ⟨revision.symm, Or.inr lease⟩

theorem LeaseKept.refl (row : MemoryRow) : LeaseKept row row :=
  .of_eq rfl rfl

theorem LeaseKept.trans {first second third : MemoryRow} (early : LeaseKept first second)
    (late : LeaseKept second third) : LeaseKept first third := by
  rcases early with rose | ⟨sameEarly, earlyLease⟩
  · rcases late with roseAgain | ⟨sameLate, _⟩
    · exact Or.inl (lt_trans rose roseAgain)
    · exact Or.inl (sameLate ▸ rose)
  · rcases late with rose | ⟨sameLate, embedded | lateLease⟩
    · exact Or.inl (sameEarly ▸ rose)
    · exact Or.inr ⟨sameEarly.trans sameLate, Or.inl embedded⟩
    · refine Or.inr ⟨sameEarly.trans sameLate, ?_⟩
      rcases earlyLease with embedded | earlyLease
      · exact Or.inl ((congrArg Lease.hasEmbedding lateLease).trans embedded)
      · exact Or.inr (lateLease.trans earlyLease)

theorem MemoryUpdate.leaseKept_setClause (update : MemoryUpdate) (now : Instant)
    (row : MemoryRow) : LeaseKept row (update.setClause now row) := by
  cases content : update.content with
  | none =>
      refine .of_eq ?_ ?_ <;> simp [MemoryUpdate.setClause, MemoryRow.lease, content]
  | some text =>
      refine Or.inl ?_
      simp only [MemoryUpdate.setClause, content, Option.isSome_some, if_true]
      omega

/-! ## Rules -/

/-- A relation that holds across rewrites of memory rows and across writes to
tables other than the memories and their metadata. -/
structure RowRules (relation : Db → Db → Prop) : Prop where
  elsewhere : ∀ {db next : Db}, next.memories = db.memories → next.metadata = db.metadata →
    relation db next
  rewrites : ∀ {db : Db} {hit : MemoryRow → Bool} {change : MemoryRow → MemoryRow}
    {keepsKey : ∀ row, (change row).id = row.id}, (∀ row, LeaseKept row (change row)) →
    relation db { db with memories := db.memories.updateWhere hit change keepsKey }

namespace RowRules

variable {relation : Db → Db → Prop} (rules : RowRules relation)

include rules

theorem of_memorySide {α : Type} {body : StoreM α} (inner : Within (Keeps Db.memorySide) body) :
    Within relation body :=
  inner.mono fun db next same => by
    simp only [Keeps, Db.memorySide, Prod.mk.injEq] at same
    exact rules.elsewhere same.1 same.2.2.1

theorem of_leavesMemories {α : Type} {body : StoreM α} (inner : LeavesMemories body) :
    Within relation body :=
  inner.mono fun db next same => by
    simp only [Keeps, Db.memoryTables, Prod.mk.injEq] at same
    exact rules.elsewhere same.1 same.2.2.1

/-! ### Statements -/

theorem insertAuditDraft (id : MemoryId) (audit : AuditDraft) :
    Within relation (LocalHold.insertAuditDraft id audit) :=
  Within.writes fun _ => rules.elsewhere rfl rfl

theorem insertContextAudit (audit : ContextAuditDraft) (contextId : Option ContextId)
    (memoryId : Option MemoryId) (now : Instant) :
    Within relation (LocalHold.insertContextAudit audit contextId memoryId now) :=
  Within.writes fun _ => rules.elsewhere rfl rfl

theorem vectorUpsert (dimensions : Nat) (id : MemoryId) (embedding : Embedding) :
    Within relation (LocalHold.vectorUpsert dimensions id embedding) :=
  rules.of_memorySide (keepsMemorySide_vectorUpsert dimensions id embedding)

theorem deleteMembershipRows (id : MemoryId) :
    Within relation (LocalHold.deleteMembershipRows id) :=
  Within.writes fun _ => rules.elsewhere rfl rfl

variable [Std.Refl relation] [IsTrans Db relation]

theorem updateMemoryWhere {id : MemoryId} {guard : MemoryRow → Bool}
    {change : MemoryRow → MemoryRow} {keepsKey : ∀ row, (change row).id = row.id}
    (keeps : ∀ row, LeaseKept row (change row)) :
    Within relation (LocalHold.updateMemoryWhere id guard change keepsKey) := by
  refine Within.bind Within.reads fun _ => ?_
  exact Within.bind (Within.writes fun _ => rules.rewrites keeps) fun _ => Within.pure

theorem updateMemory {id : MemoryId} {change : MemoryRow → MemoryRow}
    {keepsKey : ∀ row, (change row).id = row.id} (keeps : ∀ row, LeaseKept row (change row)) :
    Within relation (LocalHold.updateMemory id change keepsKey) :=
  rules.updateMemoryWhere keeps

theorem insertEntities (id : MemoryId) (entities : List Entity) :
    Within relation (LocalHold.insertEntities id entities) := by
  apply Within.forM
  intro entity _
  refine Within.bind Within.reads fun _ => ?_
  exact Within.bind Within.require fun _ => Within.writes fun _ => rules.elsewhere rfl rfl

theorem replaceEntities (id : MemoryId) (entities : List Entity) :
    Within relation (LocalHold.replaceEntities id entities) :=
  Within.bind (Within.writes fun _ => rules.elsewhere rfl rfl) fun _ =>
    rules.insertEntities id entities

theorem insertMembershipRows (id : MemoryId) (contextIds : List ContextId) (now : Instant) :
    Within relation (LocalHold.insertMembershipRows id contextIds now) := by
  apply Within.forM
  intro entry _
  refine Within.bind Within.reads fun _ => ?_
  refine Within.bind Within.require fun _ => ?_
  refine Within.bind Within.reads fun _ => ?_
  refine Within.bind Within.require fun _ => ?_
  exact Within.reads_expect_writes fun _ _ _ => rules.elsewhere rfl rfl

theorem incrementRecordRevision (id : MemoryId) (action : String) :
    Within relation (LocalHold.incrementRecordRevision id action) :=
  Within.bind (rules.updateMemory fun _ => .of_eq rfl rfl) fun _ => Within.require

theorem markSuperseded (oldId newId : MemoryId) :
    Within relation (LocalHold.markSuperseded oldId newId) := by
  refine Within.bind Within.reads fun found => ?_
  cases found with
  | none => exact Within.pure
  | some existing =>
      refine Within.bind Within.require fun _ => ?_
      refine Within.bind (rules.updateMemoryWhere fun _ => .of_eq rfl rfl) fun _ => ?_
      exact Within.bind Within.require fun _ => Within.pure

theorem insertMemoryContexts [Host] (id : MemoryId) (contextIds : List ContextId)
    (principal scope : String) (audit : ContextAuditDraft) (now : Instant)
    (preserved : List ContextId) :
    Within relation
      (LocalHold.insertMemoryContexts id contextIds principal scope audit now preserved) := by
  refine Within.bind (readsOnly_validateAuditActor audit principal).within fun _ => ?_
  refine Within.bind Within.require fun _ => ?_
  refine Within.bind (readsOnly_requireUsableContexts _ _ _).within fun _ => ?_
  refine Within.bind (readsOnly_primaryContextKey contextIds).within fun _ => ?_
  refine Within.bind Within.require fun _ => ?_
  refine Within.bind (rules.insertMembershipRows id contextIds now) fun _ => ?_
  exact rules.insertContextAudit _ _ _ _

/-! ### Updates -/

theorem applyUpdateInner (id : MemoryId) (update : MemoryUpdate) (now : Instant) :
    Within relation (LocalHold.applyUpdateInner id update now) := by
  refine Within.bind ?_ fun affected => ?_
  · unfold applyUpdateColumns
    split
    · exact rules.updateMemory (update.leaseKept_setClause now)
    · split
      · exact rules.updateMemory fun _ => .of_eq rfl rfl
      · exact (readsOnly_memoryExists id).within
  · cases affected with
    | false => exact Within.pure
    | true =>
        refine Within.bind ?_ fun _ => ?_
        · unfold dropStaleEmbedding
          split
          · refine Within.bind ?_ fun _ => ?_
            · exact rules.of_memorySide (Within.writes fun db => db.memorySide_dropEmbedding id)
            · exact Within.bind (readsOnly_embeddingRevision id).within fun _ => Within.pure
          · exact Within.pure
        · exact Within.bind (Within.onSome fun _ _ => rules.replaceEntities _ _)
            fun _ => Within.pure

theorem applyUpdate (id : MemoryId) (update : MemoryUpdate) (now : Instant) :
    Within relation (LocalHold.applyUpdate id update now) := by
  unfold LocalHold.applyUpdate
  split
  · exact Within.bind (readsOnly_memoryExists id).within fun _ => Within.pure
  · refine Within.bind Within.reads fun found => ?_
    cases found with
    | none => exact Within.pure
    | some existing =>
        refine Within.bind (readsOnly_validateCompatibilityCacheUpdate _ _ _).within fun _ => ?_
        exact rules.applyUpdateInner _ _ _

theorem updateAuthorized (id : MemoryId) (update : MemoryUpdate) (principal : String)
    (audit : Option AuditDraft) (now : Instant) :
    Within relation (LocalHold.updateAuthorized id update principal audit now) := by
  refine Within.bind Within.reads fun found => ?_
  cases found with
  | none => exact Within.pure
  | some existing =>
      dsimp only
      split
      · refine Within.bind (readsOnly_validateCompatibilityCacheUpdate _ _ _).within fun _ => ?_
        refine Within.bind (rules.applyUpdateInner _ _ _) fun _ => ?_
        exact Within.bind (Within.onSome fun _ _ => rules.insertAuditDraft _ _)
          fun _ => Within.pure
      · exact Within.pure

theorem bulkUpdateIds (ids : List MemoryId) (update : MemoryUpdate) (principal : String)
    (audit : Option AuditDraft) (now : Instant) :
    Within relation (LocalHold.bulkUpdateIds ids update principal audit now) := by
  refine Within.foldlM fun outcome id _ => ?_
  refine Within.bind Within.reads fun found => ?_
  cases found with
  | none => exact Within.pure
  | some memory =>
      dsimp only
      split
      · refine Within.bind (readsOnly_validateCompatibilityCacheUpdate _ _ _).within fun _ => ?_
        refine Within.bind (rules.applyUpdateInner _ _ _) fun _ => ?_
        exact Within.bind (Within.onSome fun _ _ => rules.insertAuditDraft _ _)
          fun _ => Within.pure
      · exact Within.pure

theorem storeReplacementEmbedding (dimensions : Nat) (activeProfile : Option EmbeddingProfile)
    (id : MemoryId) (embedding : Embedding) :
    Within relation
      (LocalHold.storeReplacementEmbedding dimensions activeProfile id embedding) := by
  refine Within.bind (Within.onSome fun _ _ =>
    (readsOnly_ensureEmbeddingProfileMatches _).within) fun _ => ?_
  refine Within.bind (rules.vectorUpsert _ _ _) fun _ => ?_
  exact Within.bind (rules.updateMemory fun _ => Or.inr ⟨rfl, Or.inl rfl⟩) fun _ => Within.require

/-! ### Supersession, usage and vectors -/

theorem markSupersededByAuthorized (id supersededBy : MemoryId) (principal : String)
    (audit : Option AuditDraft) :
    Within relation (LocalHold.markSupersededByAuthorized id supersededBy principal audit) := by
  refine Within.bind Within.reads fun existing => ?_
  split
  · exact Within.pure
  · split
    · refine Within.bind (rules.markSuperseded _ _) fun _ => ?_
      exact Within.bind (Within.onSome fun _ _ => rules.insertAuditDraft _ _) fun _ => Within.pure
    · exact Within.pure

theorem markSupersededIfUnchanged (member representative : ConsolidationSnapshot)
    (principal : String) (audit : AuditDraft) :
    Within relation
      (LocalHold.markSupersededIfUnchanged member representative principal audit) := by
  refine Within.bind Within.require fun _ => ?_
  refine Within.bind Within.require fun _ => ?_
  refine Within.bind Within.reads fun existing => ?_
  split
  · exact Within.pure
  · refine Within.bind Within.reads fun other => ?_
    split
    · exact Within.pure
    · split
      · refine Within.bind Within.reads fun _ => ?_
        refine Within.bind Within.reads fun _ => ?_
        refine Within.bind Within.require fun _ => ?_
        refine Within.bind (rules.markSuperseded _ _) fun _ => ?_
        exact Within.bind (Within.onSome fun _ _ => rules.insertAuditDraft _ _)
          fun _ => Within.pure
      · exact Within.pure

theorem recordSearchImpression (ids : List MemoryId) (now : Instant) :
    Within relation (LocalHold.recordSearchImpression ids now) :=
  Within.forM fun _ _ =>
    Within.bind (rules.updateMemory fun _ => .of_eq rfl rfl) fun _ => Within.pure

theorem recordMemoryUse (decayMass : ℚ → Option Instant → Instant → ℚ) (ids : List MemoryId)
    (principal : String) (eventWeight : ℚ) (now : Instant) :
    Within relation (LocalHold.recordMemoryUse decayMass ids principal eventWeight now) := by
  refine Within.foldlM fun outcome id _ => ?_
  refine Within.bind Within.reads fun found => ?_
  cases found with
  | none => exact Within.pure
  | some memory =>
      dsimp only
      split
      · exact Within.pure
      · exact Within.bind (rules.updateMemory fun _ => .of_eq rfl rfl) fun _ => Within.pure

theorem setEmbedding (dimensions : Nat) (activeProfile : Option EmbeddingProfile) (id : MemoryId)
    (embedding : Embedding) (expectedRevision : Int) :
    Within relation
      (LocalHold.setEmbedding dimensions activeProfile id embedding expectedRevision) := by
  refine Within.bind (readsOnly_validateEmbeddingVector _ _).within fun _ => ?_
  refine Within.bind (Within.onSome fun _ _ =>
    (readsOnly_ensureEmbeddingProfileMatches _).within) fun _ => ?_
  refine Within.bind Within.reads fun _ => ?_
  refine Within.bind Within.expect fun _ => ?_
  refine Within.bind Within.require fun _ => ?_
  refine Within.bind (rules.vectorUpsert _ _ _) fun _ => ?_
  exact Within.bind (rules.updateMemoryWhere fun _ => Or.inr ⟨rfl, Or.inl rfl⟩)
    fun _ => Within.require

end RowRules

end LocalHold
