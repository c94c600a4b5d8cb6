import LocalHold.Store.Optimistic
import LocalHold.Store.ContextEffects

/-!
# What a command can do to supersession links

A command changes the supersession links by storing unsuperseded memories and
marking one memory superseded by another, or by deleting memories and clearing
the links to them.  All other commands leave every link, and the commands that
write memories only leave the contexts.
-/

namespace LocalHold

open Relational Transition Transition.Txn

/-! ## Links -/

/-- The supersession link of a stored memory. -/
def Db.link (db : Db) (id : MemoryId) : Option (Option MemoryId) :=
  (db.memories.find? id).map (·.supersededBy)

/-- The context tables and the links. -/
def Db.linkFrame (db : Db) :=
  (db.contextTables, db.link)

/-- A transaction that leaves contexts, kinds and links unchanged. -/
abbrev LeavesLinks {α : Type} (body : StoreM α) : Prop :=
  Within (Keeps Db.linkFrame) body

/-- The tables about contexts, without the audit log. -/
def Db.contextSide (db : Db) :=
  (db.contexts, db.contextKinds, db.contextAliases, db.contextIdentities, db.contextHints,
    db.contextGrants, db.contextRelations, db.kindPolicies, db.anchorPolicies)

/-- The context side, the memberships and the links. -/
def Db.quietFrame (db : Db) :=
  (db.contextSide, db.memoryContexts, db.link)

/-- A transaction that leaves contexts, memberships and links unchanged. -/
abbrev Quiet {α : Type} (body : StoreM α) : Prop :=
  Within (Keeps Db.quietFrame) body

theorem Quiet.leavesLinks {α : Type} {body : StoreM α} (inner : Quiet body) : LeavesLinks body :=
  inner.mono fun db next same => by
    simp only [Keeps, Db.quietFrame, Db.contextSide, Prod.mk.injEq] at same
    simp only [Keeps, Db.linkFrame, Db.contextTables, same]

/-- The context side and the memberships. -/
def Db.memberFrame (db : Db) :=
  (db.contextSide, db.memoryContexts)

/-- A transaction that leaves contexts and memberships unchanged. -/
abbrev LeavesMembers {α : Type} (body : StoreM α) : Prop :=
  Within (Keeps Db.memberFrame) body

theorem Quiet.leavesMembers {α : Type} {body : StoreM α} (inner : Quiet body) :
    LeavesMembers body :=
  inner.mono fun db next same => by
    simp only [Keeps, Db.quietFrame, Prod.mk.injEq] at same
    simp only [Keeps, Db.memberFrame, same]

theorem LeavesMembers.leavesContexts {α : Type} {body : StoreM α} (inner : LeavesMembers body) :
    LeavesContexts body :=
  inner.mono fun db next same => by
    simp only [Keeps, Db.memberFrame, Db.contextSide, Prod.mk.injEq] at same
    simp only [Keeps, Db.contextTables, same]

theorem Db.link_eq_none_iff {db : Db} {id : MemoryId} :
    db.link id = none ↔ db.memories.find? id = none := by
  simp [Db.link]

theorem Db.link_of_find? {db : Db} {id : MemoryId} {row : MemoryRow}
    (found : db.memories.find? id = some row) : db.link id = some row.supersededBy := by
  simp [Db.link, found]

theorem LeavesLinks.leavesContexts {α : Type} {body : StoreM α} (inner : LeavesLinks body) :
    LeavesContexts body :=
  inner.mono fun _ _ same => (Prod.mk.inj same).1

/-- Rewriting columns other than the link keeps the links. -/
theorem Db.quietFrame_updateWhere {db : Db} {hit : MemoryRow → Bool}
    {change : MemoryRow → MemoryRow} {keepsKey : ∀ row, (change row).id = row.id}
    (keepsLink : ∀ row, (change row).supersededBy = row.supersededBy) :
    Db.quietFrame { db with memories := db.memories.updateWhere hit change keepsKey } =
      db.quietFrame := by
  simp only [Db.quietFrame, Db.contextSide, Prod.mk.injEq, true_and]
  funext id
  simp only [Db.link, Table.find?_updateWhere, Option.map_map]
  congr 1
  funext row
  simp only [Function.comp_apply]
  split
  · exact keepsLink row
  · rfl

/-! ## Changes of links -/

/-- One growing change of the links. -/
inductive LinkGrowth (db next : Db) : Prop where
  | keep (links : next.link = db.link)
  | insert (id : MemoryId) (fresh : db.link id = none)
      (links : ∀ other, next.link other = if other = id then some none else db.link other)
  | mark (old new : MemoryId) (distinct : old ≠ new) (unmarked : db.link old = some none)
      (root : db.link new = some none)
      (links : ∀ other, next.link other =
        if other = old then some (some new) else db.link other)

/-- One shrinking change of the links; the contexts stay. -/
inductive LinkLoss (db next : Db) : Prop where
  | keep (frame : next.linkFrame = db.linkFrame)
  | delete (id : MemoryId) (contexts : next.contextTables = db.contextTables)
      (links : ∀ other, next.link other =
        if other = id then none
        else (db.link other).map fun target => if target = some id then none else target)

/-- A sequence of growing changes. -/
def LinksGrow : Db → Db → Prop :=
  Relation.ReflTransGen LinkGrowth

/-- A sequence of shrinking changes. -/
def LinksShrink : Db → Db → Prop :=
  Relation.ReflTransGen LinkLoss

instance : Std.Refl LinksGrow :=
  ⟨fun _ => Relation.ReflTransGen.refl⟩

instance : IsTrans Db LinksGrow :=
  ⟨fun _ _ _ early late => Relation.ReflTransGen.trans early late⟩

instance : Std.Refl LinksShrink :=
  ⟨fun _ => Relation.ReflTransGen.refl⟩

instance : IsTrans Db LinksShrink :=
  ⟨fun _ _ _ early late => Relation.ReflTransGen.trans early late⟩

theorem LeavesLinks.grows {α : Type} {body : StoreM α} (inner : LeavesLinks body) :
    Within LinksGrow body :=
  inner.mono fun _ _ same => Relation.ReflTransGen.single (.keep (Prod.mk.inj same).2)

theorem LeavesLinks.shrinks {α : Type} {body : StoreM α} (inner : LeavesLinks body) :
    Within LinksShrink body :=
  inner.mono fun _ _ same => Relation.ReflTransGen.single (.keep same)

theorem LinksShrink.contextTables {db next : Db} (shrink : LinksShrink db next) :
    next.contextTables = db.contextTables := by
  induction shrink with
  | refl => rfl
  | tail _ change inductionHypothesis =>
      cases change with
      | keep frame => exact (Prod.mk.inj frame).1.trans inductionHypothesis
      | delete _ contexts _ => exact contexts.trans inductionHypothesis

theorem grows_of_leavesMemories {α : Type} {body : StoreM α} (inner : LeavesMemories body) :
    Within LinksGrow body :=
  inner.mono fun before after same => by
    simp only [Keeps, Db.memoryTables, Prod.mk.injEq] at same
    refine Relation.ReflTransGen.single (.keep ?_)
    funext id
    rw [Db.link, Db.link, same.1]

/-! ## Statements that leave the links -/

theorem quiet_updateMemoryWhere {id : MemoryId} {guard : MemoryRow → Bool}
    {change : MemoryRow → MemoryRow} {keepsKey : ∀ row, (change row).id = row.id}
    (keepsLink : ∀ row, (change row).supersededBy = row.supersededBy) :
    Quiet (updateMemoryWhere id guard change keepsKey) := by
  refine Within.bind Within.reads fun _ => ?_
  exact Within.bind (Within.writes fun db => db.quietFrame_updateWhere keepsLink) fun _ =>
    Within.pure

theorem quiet_updateMemory {id : MemoryId} {change : MemoryRow → MemoryRow}
    {keepsKey : ∀ row, (change row).id = row.id}
    (keepsLink : ∀ row, (change row).supersededBy = row.supersededBy) :
    Quiet (updateMemory id change keepsKey) :=
  quiet_updateMemoryWhere keepsLink

theorem quiet_insertAuditDraft (id : MemoryId) (audit : AuditDraft) :
    Quiet (insertAuditDraft id audit) :=
  Within.writes fun _ => rfl

theorem quiet_insertContextAudit (audit : ContextAuditDraft) (contextId : Option ContextId)
    (memoryId : Option MemoryId) (now : Instant) :
    Quiet (insertContextAudit audit contextId memoryId now) :=
  Within.writes fun _ => rfl

theorem quiet_deleteEmbeddingMapRow (id : MemoryId) :
    Quiet (deleteEmbeddingMapRow id) := by
  refine Within.writes fun db => ?_
  unfold Db.dropEmbedding
  split <;> rfl

theorem quiet_vectorUpsert (dimensions : Nat) (id : MemoryId) (embedding : Embedding) :
    Quiet (vectorUpsert dimensions id embedding) := by
  refine Within.bind (readsOnly_validateEmbeddingVector _ _).within fun _ => ?_
  refine Within.bind ?_ fun rowid => ?_
  · refine Within.bind Within.reads fun _ => ?_
    refine Within.bind Within.require fun _ => ?_
    refine Within.bind Within.reads fun _ => ?_
    refine Within.bind Within.reads fun _ => ?_
    refine Within.bind Within.expect fun _ => ?_
    exact Within.bind (Within.writes fun _ => rfl) fun _ => Within.pure
  · refine Within.bind (quiet_deleteEmbeddingMapRow id) fun _ => ?_
    refine Within.bind Within.reads fun _ => ?_
    refine Within.bind Within.require fun _ => ?_
    refine Within.bind Within.reads fun _ => ?_
    refine Within.bind Within.require fun _ => ?_
    exact Within.reads_expect_writes fun _ _ _ => rfl

theorem quiet_insertEntities (id : MemoryId) (entities : List Entity) :
    Quiet (insertEntities id entities) := by
  apply Within.forM
  intro entity _
  refine Within.bind Within.reads fun _ => ?_
  exact Within.bind Within.require fun _ => Within.writes fun _ => rfl

theorem quiet_replaceEntities (id : MemoryId) (entities : List Entity) :
    Quiet (replaceEntities id entities) :=
  Within.bind (Within.writes fun _ => rfl) fun _ => quiet_insertEntities id entities

theorem quiet_upsertMetadata (metadata : MemoryMetadata) (now : Instant) :
    Quiet (upsertMetadata metadata now) := by
  refine Within.bind Within.reads fun _ => ?_
  exact Within.bind Within.require fun _ => Within.writes fun _ => rfl

theorem leavesLinks_insertMembershipRows (id : MemoryId) (contextIds : List ContextId)
    (now : Instant) : LeavesLinks (insertMembershipRows id contextIds now) := by
  apply Within.forM
  intro entry _
  refine Within.bind Within.reads fun _ => ?_
  refine Within.bind Within.require fun _ => ?_
  refine Within.bind Within.reads fun _ => ?_
  refine Within.bind Within.require fun _ => ?_
  exact Within.reads_expect_writes fun _ _ _ => rfl

theorem quiet_incrementRecordRevision (id : MemoryId) (action : String) :
    Quiet (incrementRecordRevision id action) :=
  Within.bind (quiet_updateMemory fun _ => rfl) fun _ => Within.require

variable [Host]

theorem leavesLinks_insertMemoryContexts (id : MemoryId) (contextIds : List ContextId)
    (principal scope : String) (audit : ContextAuditDraft) (now : Instant)
    (preserved : List ContextId) :
    LeavesLinks (insertMemoryContexts id contextIds principal scope audit now preserved) := by
  refine Within.bind (readsOnly_validateAuditActor audit principal).within fun _ => ?_
  refine Within.bind Within.require fun _ => ?_
  refine Within.bind (readsOnly_requireUsableContexts _ _ _).within fun _ => ?_
  refine Within.bind (readsOnly_primaryContextKey contextIds).within fun _ => ?_
  refine Within.bind Within.require fun _ => ?_
  refine Within.bind (leavesLinks_insertMembershipRows id contextIds now) fun _ => ?_
  exact (quiet_insertContextAudit _ _ _ _).leavesLinks

theorem leavesLinks_replaceMemoryContextsTx (id : MemoryId) (contextIds : List ContextId)
    (principal scope : String) (audit : ContextAuditDraft) (now : Instant) :
    LeavesLinks (replaceMemoryContextsTx id contextIds principal scope audit now) := by
  refine Within.bind Within.reads fun _ => ?_
  refine Within.bind (Within.writes fun _ => rfl) fun _ => ?_
  refine Within.bind (leavesLinks_insertMemoryContexts _ _ _ _ _ _ _) fun _ => ?_
  refine Within.bind (Within.writes fun _ => rfl) fun _ => ?_
  exact Within.bind (Quiet.leavesLinks (quiet_updateMemory fun _ => rfl)) fun _ => Within.pure

theorem leavesLinks_replaceMemoryContexts (id : MemoryId) (contextIds : List ContextId)
    (principal : String) (audit : ContextAuditDraft) (now : Instant) :
    LeavesLinks (replaceMemoryContexts id contextIds principal audit now) := by
  refine Within.bind (readsOnly_validateAuditActor audit principal).within fun _ => ?_
  refine Within.bind Within.require fun _ => ?_
  refine Within.bind Within.reads fun found => ?_
  cases found with
  | none => exact Within.pure
  | some memory =>
      dsimp only
      split
      · refine Within.bind Within.reads fun _ => ?_
        refine Within.bind (readsOnly_requireUsableContexts _ _ _).within fun _ => ?_
        refine Within.bind (Within.writes fun _ => rfl) fun _ => ?_
        refine Within.bind (leavesLinks_insertMembershipRows _ _ _) fun _ => ?_
        refine Within.bind (readsOnly_primaryContextKey contextIds).within fun _ => ?_
        refine Within.bind (Within.writes fun _ => rfl) fun _ => ?_
        refine Within.bind (Quiet.leavesLinks (quiet_updateMemory fun _ => rfl)) fun _ => ?_
        exact Within.bind (quiet_insertContextAudit _ _ _ _).leavesLinks fun _ => Within.pure
      · exact Within.pure

/-! ## Updates -/

omit [Host] in
theorem quiet_applyUpdateInner (id : MemoryId) (update : MemoryUpdate) (now : Instant) :
    Quiet (applyUpdateInner id update now) := by
  refine Within.bind ?_ fun affected => ?_
  · unfold applyUpdateColumns
    split
    · exact quiet_updateMemory fun _ => rfl
    · split
      · exact quiet_updateMemory fun _ => rfl
      · exact (readsOnly_memoryExists id).within
  · cases affected with
    | false => exact Within.pure
    | true =>
        refine Within.bind ?_ fun _ => ?_
        · unfold dropStaleEmbedding
          split
          · refine Within.bind (quiet_deleteEmbeddingMapRow id) fun _ => ?_
            exact Within.bind (readsOnly_embeddingRevision id).within fun _ => Within.pure
          · exact Within.pure
        · exact Within.bind (Within.onSome fun _ _ => quiet_replaceEntities _ _)
            fun _ => Within.pure

omit [Host] in
theorem quiet_applyUpdate (id : MemoryId) (update : MemoryUpdate) (now : Instant) :
    Quiet (applyUpdate id update now) := by
  unfold applyUpdate
  split
  · exact Within.bind (readsOnly_memoryExists id).within fun _ => Within.pure
  · refine Within.bind Within.reads fun found => ?_
    cases found with
    | none => exact Within.pure
    | some existing =>
        refine Within.bind (readsOnly_validateCompatibilityCacheUpdate _ _ _).within fun _ => ?_
        exact quiet_applyUpdateInner _ _ _

omit [Host] in
theorem quiet_updateAuthorized (id : MemoryId) (update : MemoryUpdate) (principal : String)
    (audit : Option AuditDraft) (now : Instant) :
    Quiet (updateAuthorized id update principal audit now) := by
  refine Within.bind Within.reads fun found => ?_
  cases found with
  | none => exact Within.pure
  | some existing =>
      dsimp only
      split
      · refine Within.bind (readsOnly_validateCompatibilityCacheUpdate _ _ _).within fun _ => ?_
        refine Within.bind (quiet_applyUpdateInner _ _ _) fun _ => ?_
        exact Within.bind (Within.onSome fun _ _ => quiet_insertAuditDraft _ _)
          fun _ => Within.pure
      · exact Within.pure

theorem quiet_applyMetadataPatch (id : MemoryId) (patch : MetadataPatch)
    (fallbackScope : Option String) (principal : String) (now : Instant) :
    Quiet (applyMetadataPatch id patch fallbackScope principal now) :=
  Within.bind Within.reads fun _ => quiet_upsertMetadata _ _

theorem quiet_applyPatchAfterUpdate (id : MemoryId) (update : MemoryUpdate)
    (patch : Option MetadataPatch) (existing : Memory) (principal : String)
    (revisionAt : Instant) :
    Quiet (applyPatchAfterUpdate id update patch existing principal revisionAt) := by
  refine Within.bind (Within.onSome fun _ _ => ?_) fun _ => Within.onSome fun _ _ => ?_
  · exact quiet_applyMetadataPatch _ _ _ _ _
  · exact quiet_incrementRecordRevision _ _

theorem quiet_updateAuthorizedWithMetadata (id : MemoryId) (update : MemoryUpdate)
    (patch : Option MetadataPatch) (principal : String) (audit : Option AuditDraft)
    (now : Instant) :
    Quiet (updateAuthorizedWithMetadata id update patch principal audit now) := by
  refine Within.bind Within.reads fun found => ?_
  cases found with
  | none => exact Within.pure
  | some existing =>
      dsimp only
      split
      · refine Within.bind (readsOnly_validateCompatibilityCacheUpdate _ _ _).within fun _ => ?_
        refine Within.bind (quiet_applyUpdateInner _ _ _) fun outcome => ?_
        split
        · refine Within.bind (quiet_applyPatchAfterUpdate _ _ _ _ _ _) fun _ => ?_
          exact Within.bind (Within.onSome fun _ _ => quiet_insertAuditDraft _ _)
            fun _ => Within.pure
        · exact Within.pure
      · exact Within.pure

theorem leavesLinks_replaceContextsForUpdate (id : MemoryId) (update : MemoryUpdate)
    (patch : Option MetadataPatch) (contextIds : List ContextId) (principal : String)
    (contextAudit : Option ContextAuditDraft) (revisionAt : Instant) :
    LeavesLinks
      (replaceContextsForUpdate id update patch contextIds principal contextAudit revisionAt) := by
  refine Within.bind Within.expect fun _ => ?_
  refine Within.bind Within.expect fun _ => ?_
  exact Within.bind Within.require fun _ => leavesLinks_replaceMemoryContextsTx _ _ _ _ _ _

theorem leavesLinks_updateAuthorizedWithMetadataContexts (id : MemoryId) (update : MemoryUpdate)
    (patch : Option MetadataPatch) (contextIds : Option (List ContextId)) (principal : String)
    (audit : AuditDraft) (contextAudit : Option ContextAuditDraft) (now : Instant) :
    LeavesLinks (updateAuthorizedWithMetadataContexts id update patch contextIds principal audit
      contextAudit now) := by
  refine Within.bind Within.require fun _ => ?_
  refine Within.bind Within.reads fun found => ?_
  cases found with
  | none => exact Within.pure
  | some existing =>
      dsimp only
      split
      · refine Within.bind (Within.onSome fun _ _ =>
          (readsOnly_validateCompatibilityCacheUpdate _ _ _).within) fun _ => ?_
        refine Within.bind (quiet_applyUpdateInner _ _ _).leavesLinks fun outcome => ?_
        split
        · refine Within.bind (quiet_applyPatchAfterUpdate _ _ _ _ _ _).leavesLinks fun _ => ?_
          refine Within.bind (Within.onSome fun _ _ => ?_) fun _ => ?_
          · exact leavesLinks_replaceContextsForUpdate _ _ _ _ _ _ _
          · exact Within.bind (quiet_insertAuditDraft _ _).leavesLinks fun _ => Within.pure
        · exact Within.pure
      · exact Within.pure

omit [Host] in
theorem quiet_storeReplacementEmbedding (dimensions : Nat)
    (activeProfile : Option EmbeddingProfile) (id : MemoryId) (embedding : Embedding) :
    Quiet (storeReplacementEmbedding dimensions activeProfile id embedding) := by
  refine Within.bind (Within.onSome fun _ _ =>
    (readsOnly_ensureEmbeddingProfileMatches _).within) fun _ => ?_
  refine Within.bind (quiet_vectorUpsert _ _ _) fun _ => ?_
  exact Within.bind (quiet_updateMemory fun _ => rfl) fun _ => Within.require

theorem leavesLinks_replaceContextsOptimistically (id : MemoryId) (contextIds : List ContextId)
    (principal : String) (contextAudit : Option ContextAuditDraft) (revisionAt : Instant) :
    LeavesLinks
      (replaceContextsOptimistically id contextIds principal contextAudit revisionAt) := by
  refine Within.bind Within.expect fun _ => ?_
  refine Within.bind (readsOnly_optimisticCompatibilityScope _).within fun _ => ?_
  refine Within.bind Within.reads fun _ => ?_
  refine Within.bind (quiet_upsertMetadata _ _).leavesLinks fun _ => ?_
  exact leavesLinks_replaceMemoryContextsTx _ _ _ _ _ _

theorem leavesLinks_updateAuthorizedIfUnmodified (dimensions : Nat)
    (activeProfile : Option EmbeddingProfile) (id : MemoryId) (expectedRevision : Int)
    (update : MemoryUpdate) (patch : Option MetadataPatch)
    (contextIds : Option (List ContextId)) (embedding : Option Embedding) (principal : String)
    (audit : AuditDraft) (contextAudit : Option ContextAuditDraft) (now : Instant) :
    LeavesLinks (updateAuthorizedIfUnmodified dimensions activeProfile id expectedRevision update
      patch contextIds embedding principal audit contextAudit now) := by
  refine Within.bind Within.require fun _ => ?_
  refine Within.bind (Within.onSome fun _ _ => (readsOnly_validateEmbeddingVector _ _).within)
    fun _ => ?_
  refine Within.bind Within.require fun _ => ?_
  refine Within.bind Within.reads fun found => ?_
  cases found with
  | none => exact Within.pure
  | some existing =>
      dsimp only
      split
      · refine Within.bind Within.require fun _ => ?_
        refine Within.bind (Within.onSome fun _ _ =>
          (readsOnly_validateCompatibilityCacheUpdate _ _ _).within) fun _ => ?_
        refine Within.bind (quiet_applyUpdateInner _ _ _).leavesLinks fun _ => ?_
        refine Within.bind (Within.onSome fun _ _ => ?_) fun _ => ?_
        · exact (quiet_storeReplacementEmbedding _ _ _ _).leavesLinks
        refine Within.bind (Within.onSome fun _ _ => ?_) fun _ => ?_
        · exact (quiet_applyMetadataPatch _ _ _ _ _).leavesLinks
        refine Within.bind (Within.onSome fun _ _ => ?_) fun _ => ?_
        · exact (quiet_incrementRecordRevision _ _).leavesLinks
        refine Within.bind (Within.onSome fun _ _ => ?_) fun _ => ?_
        · exact leavesLinks_replaceContextsOptimistically _ _ _ _ _
        exact Within.bind (quiet_insertAuditDraft _ _).leavesLinks fun _ => Within.pure
      · exact Within.pure

omit [Host] in
theorem quiet_bulkUpdateIds (ids : List MemoryId) (update : MemoryUpdate)
    (principal : String) (audit : Option AuditDraft) (now : Instant) :
    Quiet (bulkUpdateIds ids update principal audit now) := by
  refine Within.foldlM fun outcome id _ => ?_
  refine Within.bind Within.reads fun found => ?_
  cases found with
  | none => exact Within.pure
  | some memory =>
      dsimp only
      split
      · refine Within.bind (readsOnly_validateCompatibilityCacheUpdate _ _ _).within fun _ => ?_
        refine Within.bind (quiet_applyUpdateInner _ _ _) fun _ => ?_
        exact Within.bind (Within.onSome fun _ _ => quiet_insertAuditDraft _ _)
          fun _ => Within.pure
      · exact Within.pure

/-! ## Usage, vectors and administration -/

omit [Host] in
theorem quiet_recordSearchImpression (ids : List MemoryId) (now : Instant) :
    Quiet (recordSearchImpression ids now) :=
  Within.forM fun _ _ =>
    Within.bind (quiet_updateMemory fun _ => rfl) fun _ => Within.pure

omit [Host] in
theorem quiet_recordMemoryUse (decayMass : ℚ → Option Instant → Instant → ℚ)
    (ids : List MemoryId) (principal : String) (eventWeight : ℚ) (now : Instant) :
    Quiet (recordMemoryUse decayMass ids principal eventWeight now) := by
  refine Within.foldlM fun outcome id _ => ?_
  refine Within.bind Within.reads fun found => ?_
  cases found with
  | none => exact Within.pure
  | some memory =>
      dsimp only
      split
      · exact Within.pure
      · exact Within.bind (quiet_updateMemory fun _ => rfl) fun _ => Within.pure

theorem quiet_claimForReembed (principal : Option String) (limit : Nat) (token : String)
    (now : Instant) : Quiet (claimForReembed principal limit token now) := by
  refine Within.bind Within.reads fun _ => ?_
  exact Within.bind (Within.writes fun db => db.quietFrame_updateWhere fun _ => rfl) fun _ =>
    Within.pure

omit [Host] in
theorem quiet_setEmbedding (dimensions : Nat) (activeProfile : Option EmbeddingProfile)
    (id : MemoryId) (embedding : Embedding) (expectedRevision : Int) :
    Quiet (setEmbedding dimensions activeProfile id embedding expectedRevision) := by
  refine Within.bind (readsOnly_validateEmbeddingVector _ _).within fun _ => ?_
  refine Within.bind (Within.onSome fun _ _ =>
    (readsOnly_ensureEmbeddingProfileMatches _).within) fun _ => ?_
  refine Within.bind Within.reads fun _ => ?_
  refine Within.bind Within.expect fun _ => ?_
  refine Within.bind Within.require fun _ => ?_
  refine Within.bind (quiet_vectorUpsert _ _ _) fun _ => ?_
  exact Within.bind (quiet_updateMemoryWhere fun _ => rfl) fun _ => Within.require

omit [Host] in
theorem quiet_insertEmbeddingProfile (profile : EmbeddingProfile) :
    Quiet (insertEmbeddingProfile profile) :=
  Within.bind Within.require fun _ => Within.writes fun _ => rfl

omit [Host] in
theorem quiet_verifyEmbeddingProfile (profile : EmbeddingProfile) :
    Quiet (verifyEmbeddingProfile profile) := by
  refine Within.bind Within.reads fun recorded => ?_
  cases recorded with
  | some existing => exact Within.require
  | none =>
      refine Within.bind Within.reads fun _ => ?_
      exact Within.bind Within.require fun _ => quiet_insertEmbeddingProfile _

omit [Host] in
theorem quiet_reindexEmbeddings (profile : EmbeddingProfile) :
    Quiet (reindexEmbeddings profile) := by
  refine Within.bind (Within.writes fun db => ?_) fun _ => quiet_insertEmbeddingProfile _
  exact @Db.quietFrame_updateWhere db _ MemoryRow.withoutEmbedding (fun _ => rfl) fun _ => rfl

omit [Host] in
theorem quiet_upsertMetadataAudited (metadata : MemoryMetadata) (audit : Option AuditDraft)
    (now : Instant) : Quiet (upsertMetadataAudited metadata audit now) := by
  refine Within.bind Within.reads fun _ => ?_
  refine Within.bind Within.expect fun _ => ?_
  refine Within.bind Within.reads fun _ => ?_
  refine Within.bind Within.require fun _ => ?_
  refine Within.bind (quiet_upsertMetadata _ _) fun _ => ?_
  refine Within.bind (quiet_incrementRecordRevision _ _) fun _ => ?_
  exact Within.onSome fun _ _ => quiet_insertAuditDraft _ _

omit [Host] in
theorem quiet_insertMigratedMetadata (row : PreparedMigrationMetadata)
    (audit : Option AuditDraft) (now : Instant) :
    Quiet (insertMigratedMetadata row audit now) := by
  refine Within.bind Within.reads fun _ => ?_
  split
  · exact Within.pure
  · refine Within.bind Within.reads fun _ => ?_
    refine Within.bind Within.require fun _ => ?_
    refine Within.bind (Within.writes fun _ => rfl) fun _ => ?_
    refine Within.bind (quiet_incrementRecordRevision _ _) fun _ => ?_
    exact Within.bind (Within.onSome fun _ _ => quiet_insertAuditDraft _ _) fun _ => Within.pure

theorem quiet_migrateMetadata (dryRun : Bool) (audit : Option AuditDraft) (now : Instant) :
    Quiet (migrateMetadata dryRun audit now) := by
  refine Within.bind Within.reads fun _ => ?_
  refine Within.bind Within.reads fun _ => ?_
  split
  · exact Within.pure
  · refine Within.bind (Within.mapM fun _ _ => ?_) fun _ => Within.pure
    exact quiet_insertMigratedMetadata _ _ _

omit [Host] in
theorem leavesLinks_reassignMemory (target : ContextId) (targetKey fromScope principal : String)
    (audit : Option AuditDraft) (now : Instant) (id : MemoryId) :
    LeavesLinks (reassignMemory target targetKey fromScope principal audit now id) := by
  refine Within.bind (Quiet.leavesLinks (quiet_updateMemory fun _ => rfl)) fun _ => ?_
  refine Within.bind (quiet_incrementRecordRevision _ _).leavesLinks fun _ => ?_
  refine Within.bind (Within.writes fun _ => rfl) fun _ => ?_
  refine Within.bind Within.reads fun _ => ?_
  refine Within.bind (Within.writes fun _ => rfl) fun _ => ?_
  refine Within.bind (leavesLinks_insertMembershipRows _ _ _) fun _ => ?_
  refine Within.bind (quiet_insertContextAudit _ _ _ _).leavesLinks fun _ => ?_
  exact Within.onSome fun _ _ => (quiet_insertAuditDraft _ _).leavesLinks

/-! ## Storing -/

omit [Host] in
/-- Storing a memory adds its link. -/
theorem link_insertPrepared {dimensions : Nat} {item : MemoryWithEmbedding} {db next : Db}
    {value : Unit} (ran : insertPrepared dimensions item db = .ok (value, next)) :
    db.link item.memory.id = none ∧ ∀ other, next.link other =
      if other = item.memory.id then some item.memory.supersededBy else db.link other := by
  obtain ⟨_, middle, insertRan, ran⟩ := bind_eq_ok.mp ran
  have rest : LeavesLinks (do
      onSome item.embedding fun embedding => vectorUpsert dimensions item.memory.id embedding
      insertEntities item.memory.id item.memory.entities) :=
    Within.bind (Within.onSome fun _ _ => (quiet_vectorUpsert _ _ _).leavesLinks) fun _ =>
      (quiet_insertEntities _ _).leavesLinks
  have sameLinks : next.link = middle.link := (Prod.mk.inj (rest ran)).2
  have insertRan := of_reads_bind insertRan
  obtain ⟨memories, inserted, written⟩ := of_expect_bind insertRan
  cases writes_eq_ok.mp written
  have absent := (Table.insert?_eq_some_iff.mp inserted).1
  refine ⟨?_, ?_⟩
  · rw [Db.link_eq_none_iff, Table.find?_eq_none_iff]
    exact Table.contains_eq_false_iff.mp absent
  · intro other
    rw [sameLinks]
    simp only [Db.link, Table.find?_insert? inserted]
    by_cases same : other = item.memory.id
    · subst same
      simp [preparedMemoryRow]
    · rw [if_neg same, if_neg (by simpa [preparedMemoryRow] using same)]

omit [Host] in
theorem grows_insertPrepared {dimensions : Nat} {item : MemoryWithEmbedding}
    (root : item.memory.supersededBy = none) :
    Within LinksGrow (insertPrepared dimensions item) := by
  intro db value next ran
  obtain ⟨fresh, links⟩ := link_insertPrepared ran
  rw [root] at links
  exact Relation.ReflTransGen.single (.insert _ fresh links)

omit [Host] in
/-- A mark is set on an unmarked memory, or nothing happens. -/
theorem link_markSuperseded {old new : MemoryId} {db next : Db} {marked : Bool}
    (ran : markSuperseded old new db = .ok (marked, next)) :
    (marked = false ∧ next = db) ∨
      (marked = true ∧ db.link old = some none ∧ ∀ other, next.link other =
        if other = old then some (some new) else db.link other) := by
  have ran := of_reads_bind ran
  cases found : db.memories.find? old with
  | none =>
      rw [found] at ran
      cases pure_eq_ok.mp ran
      exact Or.inl ⟨rfl, rfl⟩
  | some row =>
      rw [found] at ran
      obtain ⟨unmarked, ran⟩ := of_require_bind ran
      obtain ⟨_, middle, updated, ran⟩ := bind_eq_ok.mp ran
      obtain ⟨_, ran⟩ := of_require_bind ran
      cases pure_eq_ok.mp ran
      have updated := of_reads_bind updated
      obtain ⟨_, _, written, done⟩ := bind_eq_ok.mp updated
      cases writes_eq_ok.mp written
      cases pure_eq_ok.mp done
      have free : row.supersededBy = none := Option.isNone_iff_eq_none.mp unmarked
      refine Or.inr ⟨rfl, ?_, ?_⟩
      · rw [Db.link_of_find? found, free]
      · intro other
        simp only [Db.link, Table.find?_updateWhere, Option.map_map]
        by_cases same : other = old
        · subst same
          simp [found, free, Table.find?_key found]
        · rw [if_neg same]
          cases stored : db.memories.find? other with
          | none => rfl
          | some otherRow =>
              have otherId : otherRow.id ≠ old := by
                rw [Table.find?_key stored]
                exact same
              simp [otherId]

omit [Host] in
/-- Marking a memory superseded by a distinct unmarked one grows the links. -/
theorem grow_markSuperseded {old new : MemoryId} {db next : Db} {marked : Bool}
    (ran : markSuperseded old new db = .ok (marked, next)) (distinct : old ≠ new)
    (root : db.link new = some none) : LinksGrow db next := by
  rcases link_markSuperseded ran with ⟨_, same⟩ | ⟨_, unmarked, links⟩
  · rw [same]
    exact Relation.ReflTransGen.refl
  · exact Relation.ReflTransGen.single (.mark old new distinct unmarked root links)

omit [Host] in
theorem contains_of_validateSupersededExists {id : MemoryId} {db : Db} {result : Unit × Db}
    (ran : validateSupersededExists id db = .ok result) : db.memories.contains id = true := by
  have ran := of_reads_bind ran
  exact (require_eq_ok.mp ran).1

omit [Host] in
theorem grows_insertPreparedWithSupersession {dimensions : Nat} {item : MemoryWithEmbedding}
    (root : item.memory.supersededBy = none) (supersedes : Option MemoryId)
    (audit : Option AuditDraft) :
    Within LinksGrow (insertPreparedWithSupersession dimensions item supersedes audit) := by
  have checks : ReadsOnly (onSome supersedes validateSupersededExists) :=
    Within.onSome fun _ _ => readsOnly_validateSupersededExists _
  intro db value next ran
  obtain ⟨_, checked, ran⟩ := checks.of_bind ran
  obtain ⟨_, stored, insertRan, ran⟩ := bind_eq_ok.mp ran
  obtain ⟨fresh, links⟩ := link_insertPrepared insertRan
  obtain ⟨_, marked, markRan, ran⟩ := bind_eq_ok.mp ran
  have grown : LinksGrow stored marked := by
    cases supersedes with
    | none =>
        cases pure_eq_ok.mp markRan
        exact Relation.ReflTransGen.refl
    | some old =>
        obtain ⟨_, _, markRan, done⟩ := bind_eq_ok.mp markRan
        cases pure_eq_ok.mp done
        refine grow_markSuperseded markRan ?_ (by rw [links, if_pos rfl, root])
        rintro rfl
        have present := contains_of_validateSupersededExists checked
        rw [Table.contains, Option.isSome_iff_ne_none] at present
        exact present (Db.link_eq_none_iff.mp fresh)
  have audited : LinksGrow marked next :=
    Within.onSome (fun _ _ => (quiet_insertAuditDraft _ _).leavesLinks.grows) ran
  exact IsTrans.trans _ _ _ (grows_insertPrepared root insertRan)
    (IsTrans.trans _ _ _ grown audited)

/-! ## Storing commands -/

omit [Host] in
theorem grows_storeItemWithMetadata {dimensions : Nat} {item : MemoryWithEmbedding}
    (root : item.memory.supersededBy = none) (supersedes : Option MemoryId)
    (metadata : MemoryMetadata) (audit : Option AuditDraft) (now : Instant) :
    Within LinksGrow (storeItemWithMetadata dimensions item supersedes metadata audit now) :=
  Within.bind (grows_insertPreparedWithSupersession root _ _) fun _ =>
    (quiet_upsertMetadata _ _).leavesLinks.grows

theorem grows_storeGovernedItem {dimensions : Nat} {request : GovernedItem}
    (root : request.item.memory.supersededBy = none) (principal : String) (now : Instant) :
    Within LinksGrow (storeGovernedItem dimensions request principal now) :=
  Within.bind (grows_storeItemWithMetadata root _ _ _ _) fun _ =>
    (leavesLinks_insertMemoryContexts _ _ _ _ _ _ _).grows

omit [Host] in
theorem grows_store {dimensions : Nat} {item : MemoryWithEmbedding}
    (root : item.memory.supersededBy = none) (audit : Option AuditDraft) :
    Within LinksGrow (store dimensions item audit) := by
  refine Within.bind (grows_insertPrepared root) fun _ => ?_
  exact Within.bind (Within.onSome fun _ _ => (quiet_insertAuditDraft _ _).leavesLinks.grows)
    fun _ => Within.pure

omit [Host] in
theorem grows_storeWithSupersession {dimensions : Nat} {item : MemoryWithEmbedding}
    (root : item.memory.supersededBy = none) (supersedes : MemoryId)
    (audit : Option AuditDraft) :
    Within LinksGrow (storeWithSupersession dimensions item supersedes audit) :=
  Within.bind (grows_insertPreparedWithSupersession root _ _) fun _ => Within.pure

omit [Host] in
theorem grows_storeWithMetadata {dimensions : Nat} {item : MemoryWithEmbedding}
    (root : item.memory.supersededBy = none) (supersedes : Option MemoryId)
    (metadata : MemoryMetadata) (audit : Option AuditDraft) (now : Instant) :
    Within LinksGrow (storeWithMetadata dimensions item supersedes metadata audit now) := by
  refine Within.bind Within.require fun _ => ?_
  exact Within.bind (grows_storeItemWithMetadata root _ _ _ _) fun _ => Within.pure

theorem grows_storeWithMetadataContexts {dimensions : Nat} {request : GovernedItem}
    (root : request.item.memory.supersededBy = none) (now : Instant) :
    Within LinksGrow (storeWithMetadataContexts dimensions request now) := by
  refine Within.bind (readsOnly_validateGovernedItem request).within fun _ => ?_
  exact Within.bind (grows_storeGovernedItem root _ _) fun _ => Within.pure

section Batches

variable {dimensions : Nat} {items : List MemoryWithEmbedding}

omit [Host] in
theorem grows_storeBatch (roots : ∀ item ∈ items, item.memory.supersededBy = none)
    (audits : Option (List AuditDraft)) :
    Within LinksGrow (storeBatch dimensions items audits) := by
  refine Within.bind (Within.onSome fun _ _ => Within.require) fun _ => ?_
  refine Within.bind (Within.forM fun entry entryMem => ?_) fun _ => Within.pure
  refine Within.bind ?_ fun _ =>
    Within.onSome fun _ _ => (quiet_insertAuditDraft _ _).leavesLinks.grows
  exact grows_insertPrepared (roots _ (List.fst_mem_of_mem_zipIdx entryMem))

omit [Host] in
theorem grows_storeBatchWithSupersession
    (roots : ∀ item ∈ items, item.memory.supersededBy = none)
    (supersedes : List (Option MemoryId)) (audits : Option (List AuditDraft)) :
    Within LinksGrow (storeBatchWithSupersession dimensions items supersedes audits) := by
  refine Within.bind Within.require fun _ => ?_
  refine Within.bind (Within.onSome fun _ _ => Within.require) fun _ => ?_
  refine Within.bind (Within.forM fun entry entryMem => ?_) fun _ => Within.pure
  exact grows_insertPreparedWithSupersession (roots _ (List.fst_mem_of_mem_zipIdx entryMem)) _ _

omit [Host] in
theorem grows_storeBatchWithMetadata
    (roots : ∀ item ∈ items, item.memory.supersededBy = none)
    (supersedes : List (Option MemoryId)) (metadata : List MemoryMetadata)
    (audits : Option (List AuditDraft)) (now : Instant) :
    Within LinksGrow
      (storeBatchWithMetadata dimensions items supersedes metadata audits now) := by
  refine Within.bind Within.require fun _ => ?_
  refine Within.bind Within.require fun _ => ?_
  refine Within.bind (Within.onSome fun _ _ => Within.require) fun _ => ?_
  refine Within.bind (Within.forM fun _ _ => Within.require) fun _ => ?_
  refine Within.bind (Within.forM fun entry entryMem => ?_) fun _ => Within.pure
  have itemMem : entry.1.1 ∈ items :=
    (List.of_mem_zip (List.fst_mem_of_mem_zipIdx entryMem)).1
  exact grows_storeItemWithMetadata (roots _ itemMem) _ _ _ _

theorem grows_storeBatchWithMetadataContexts
    (roots : ∀ item ∈ items, item.memory.supersededBy = none)
    (supersedes : List (Option MemoryId)) (metadata : List MemoryMetadata)
    (contextIds : List (List ContextId)) (audits : List AuditDraft)
    (contextAudits : List ContextAuditDraft) (now : Instant) :
    Within LinksGrow (storeBatchWithMetadataContexts dimensions items supersedes metadata
      contextIds audits contextAudits now) := by
  refine Within.bind Within.require fun _ => ?_
  refine Within.bind (Within.mapM fun _ _ => (readsOnly_validateGovernedItem _).within)
    fun _ => ?_
  refine Within.bind (Within.forM fun entry entryMem => ?_) fun _ => Within.pure
  have itemMem : entry.1.item ∈ items :=
    item_mem_of_mem_governedItems (List.of_mem_zip entryMem).1
  exact grows_storeGovernedItem (roots _ itemMem) _ _

end Batches

/-! ## Deletion -/

omit [Host] in
theorem shrinks_entombMemory (memory : Memory) (deletedAt : Instant)
    (deletedBy : Option String) : Within LinksShrink (entombMemory memory deletedAt deletedBy) := by
  refine Within.bind (LeavesLinks.shrinks (Within.writes fun _ => rfl)) fun _ => ?_
  refine Within.bind (readsOnly_memoryExists memory.id).within fun present => ?_
  cases present with
  | false => exact Within.pure
  | true =>
      refine Within.bind (Within.writes fun db => ?_) fun _ => Within.pure
      refine Relation.ReflTransGen.single (.delete memory.id ?_ fun other => ?_)
      · simp only [Db.contextTables, Db.dropMemory, Db.dropEmbedding]
        split <;> rfl
      simp only [Db.link, Db.find?_dropMemory]
      split
      · rfl
      · rw [Option.map_map, Option.map_map]
        congr 1
        funext row
        simp only [Function.comp_apply]
        split <;> rfl

omit [Host] in
theorem shrinks_insertAuditDraft (id : MemoryId) (audit : AuditDraft) :
    Within LinksShrink (insertAuditDraft id audit) :=
  (quiet_insertAuditDraft id audit).leavesLinks.shrinks

end LocalHold
