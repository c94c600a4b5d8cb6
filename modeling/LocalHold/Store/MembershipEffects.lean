import LocalHold.Store.ContextRuns
import LocalHold.Store.ScopeWrites

/-!
# What a command can do to memberships

A command changes the memberships by detaching a memory from all of its
contexts, by attaching a memory to contexts that a principal may use, or by
moving a memory behind one context while it keeps the others.  The context side
of the database stays in each case.
-/

namespace LocalHold

open Relational Transition Transition.Txn

/-! ## Changes -/

/-- The memberships of all other memories. -/
def Db.otherMemberships (db : Db) (id : MemoryId) : List MembershipRow :=
  db.memoryContexts.rows.filter fun row => !decide (row.memoryId = id)

/-- One change of the memberships.  A memory may be moved to a target context. -/
inductive MembershipChange (target : MemoryId → ContextId → Prop) (db next : Db) : Prop where
  | keep (frame : next.memberFrame = db.memberFrame)
  | detach (id : MemoryId) (side : next.contextSide = db.contextSide)
      (rows : next.memoryContexts.rows = db.otherMemberships id)
  | attach (id : MemoryId) (contextIds : List ContextId) (now : Instant)
      (side : next.contextSide = db.contextSide)
      (rows : next.memoryContexts.rows =
        db.memoryContexts.rows ++ membershipRows id contextIds.zipIdx now)
      (stored : ∀ contextId ∈ contextIds, db.contexts.contains contextId = true)
      (usable : ∀ contextId ∈ contextIds, ∃ principal active,
        db.contextUseAllowed contextId principal active = true)
  | move (id : MemoryId) (contextIds : List ContextId) (now : Instant)
      (side : next.contextSide = db.contextSide)
      (rows : next.memoryContexts.rows =
        db.otherMemberships id ++ membershipRows id contextIds.zipIdx now)
      (stored : ∀ contextId ∈ contextIds, db.contexts.contains contextId = true)
      (kept : ∀ contextId ∈ contextIds,
        contextId ∈ db.orderedMemberships id ∨ target id contextId)

/-- A sequence of changes of the memberships. -/
def MembershipsEvolve (target : MemoryId → ContextId → Prop) : Db → Db → Prop :=
  Relation.ReflTransGen (MembershipChange target)

instance (target : MemoryId → ContextId → Prop) : Std.Refl (MembershipsEvolve target) :=
  ⟨fun _ => Relation.ReflTransGen.refl⟩

instance (target : MemoryId → ContextId → Prop) : IsTrans Db (MembershipsEvolve target) :=
  ⟨fun _ _ _ early late => Relation.ReflTransGen.trans early late⟩

variable {target : MemoryId → ContextId → Prop}

theorem MembershipChange.contextSide {db next : Db} (change : MembershipChange target db next) :
    next.contextSide = db.contextSide := by
  cases change with
  | keep frame => exact (Prod.mk.inj frame).1
  | detach _ side _ => exact side
  | attach _ _ _ side _ _ _ => exact side
  | move _ _ _ side _ _ _ => exact side

theorem MembershipsEvolve.contextSide {db next : Db} (evolve : MembershipsEvolve target db next) :
    next.contextSide = db.contextSide := by
  induction evolve with
  | refl => rfl
  | tail _ change inductionHypothesis => exact change.contextSide.trans inductionHypothesis

theorem LeavesMembers.evolves {α : Type} {body : StoreM α} (inner : LeavesMembers body) :
    Within (MembershipsEvolve target) body :=
  inner.mono fun _ _ same => Relation.ReflTransGen.single (.keep same)

theorem Quiet.evolves {α : Type} {body : StoreM α} (inner : Quiet body) :
    Within (MembershipsEvolve target) body :=
  inner.leavesMembers.evolves

/-! ## Statements -/

/-- Inserting memberships appends their rows. -/
theorem insertMembershipRows_rows {id : MemoryId} {contextIds : List ContextId} {now : Instant}
    {db next : Db} {value : Unit}
    (ran : insertMembershipRows id contextIds now db = .ok (value, next)) :
    next.memoryContexts.rows =
      db.memoryContexts.rows ++ membershipRows id contextIds.zipIdx now := by
  unfold insertMembershipRows at ran
  generalize contextIds.zipIdx = items at ran ⊢
  induction items generalizing db with
  | nil =>
      cases pure_eq_ok.mp ran
      exact (List.append_nil _).symm
  | cons item rest inductionHypothesis =>
      rw [List.forM_eq_forM, List.forM_cons] at ran
      obtain ⟨_, middle, itemRan, restRan⟩ := bind_eq_ok.mp ran
      have itemRan := of_reads_bind itemRan
      obtain ⟨_, itemRan⟩ := of_require_bind itemRan
      have itemRan := of_reads_bind itemRan
      obtain ⟨_, itemRan⟩ := of_require_bind itemRan
      have itemRan := of_reads_bind itemRan
      obtain ⟨memberships, inserted, written⟩ := of_expect_bind itemRan
      cases writes_eq_ok.mp written
      rw [inductionHypothesis restRan, (Table.insert?_eq_some_iff.mp inserted).2]
      simp [membershipRows]

theorem side_insertMembershipRows {id : MemoryId} {contextIds : List ContextId} {now : Instant}
    {db next : Db} {value : Unit}
    (ran : insertMembershipRows id contextIds now db = .ok (value, next)) :
    next.contextSide = db.contextSide := by
  obtain ⟨_, ⟨_, rfl⟩, _⟩ := insertMembershipRows_ok ran
  rfl

theorem evolves_deleteMembershipRows (id : MemoryId) :
    Within (MembershipsEvolve target) (deleteMembershipRows id) :=
  Within.writes fun _ => Relation.ReflTransGen.single (.detach id rfl rfl)

theorem evolves_dropMemory (db : Db) (id : MemoryId) :
    MembershipsEvolve target db (db.dropMemory id) := by
  refine Relation.ReflTransGen.single (.detach id ?_ rfl)
  unfold Db.dropMemory Db.dropEmbedding
  dsimp only
  split <;> rfl

variable [Host]

/-- The context a principal may use is usable by the side of contexts alone. -/
theorem usable_of_requireUsableContexts {contextIds preserved : List ContextId}
    {principal : String} {db : Db} {result : Unit × Db}
    (ran : requireUsableContexts contextIds preserved principal db = .ok result) :
    ∀ contextId ∈ contextIds,
      db.contextUseAllowed contextId principal (!preserved.contains contextId) = true := by
  have passed := ReadsOnly.of_forM (fun _ => Within.bind Within.reads fun _ => Within.require) ran
  intro contextId contextMem
  have checked := of_reads_bind (passed contextId contextMem)
  exact (require_eq_ok.mp checked).1

omit [Host] in
/-- Whether a context may be used is decided by the side of contexts. -/
theorem Db.contextUseAllowed_congr {db other : Db} (side : other.contextSide = db.contextSide)
    (id : ContextId) (principal : String) (active : Bool) :
    other.contextUseAllowed id principal active = db.contextUseAllowed id principal active := by
  simp only [Db.contextSide, Prod.mk.injEq] at side
  simp only [Db.contextUseAllowed, Db.kindIsEnabled, Db.contextVisible, side]

omit [Host] in
/-- A membership after a change was there before, or is in a usable context, or
was aimed at. -/
theorem MembershipsEvolve.joined {db next : Db} (evolve : MembershipsEvolve target db next)
    {row : MembershipRow} (rowMem : row ∈ next.memoryContexts) :
    db.memoryContexts.contains (row.memoryId, row.contextId) = true ∨
      (∃ principal active, db.contextUseAllowed row.contextId principal active = true) ∨
      target row.memoryId row.contextId := by
  induction evolve generalizing row with
  | refl => exact Or.inl (Table.contains_eq_true_iff.mpr ⟨row, rowMem, rfl⟩)
  | @tail middle next earlier change inductionHypothesis =>
      have side := MembershipsEvolve.contextSide earlier
      have listed : ∀ {id : MemoryId} {contextIds : List ContextId} {now : Instant},
          row ∈ membershipRows id contextIds.zipIdx now →
            row.memoryId = id ∧ row.contextId ∈ contextIds := by
        intro id contextIds now rowMem
        obtain ⟨item, itemMem, rfl⟩ := List.mem_map.mp rowMem
        exact ⟨rfl, List.fst_mem_of_mem_zipIdx itemMem⟩
      cases change with
      | keep frame =>
          have same : next.memoryContexts = middle.memoryContexts := (Prod.mk.inj frame).2
          rw [same] at rowMem
          exact inductionHypothesis rowMem
      | detach id _ rows =>
          rw [Table.mem_def, rows] at rowMem
          exact inductionHypothesis (List.mem_of_mem_filter rowMem)
      | attach id contextIds now _ rows _ usable =>
          rw [Table.mem_def, rows, List.mem_append] at rowMem
          rcases rowMem with old | new
          · exact inductionHypothesis old
          · obtain ⟨_, contextMem⟩ := listed new
            obtain ⟨principal, active, allowed⟩ := usable _ contextMem
            rw [Db.contextUseAllowed_congr side] at allowed
            exact Or.inr (Or.inl ⟨principal, active, allowed⟩)
      | move id contextIds now _ rows _ kept =>
          rw [Table.mem_def, rows, List.mem_append] at rowMem
          rcases rowMem with old | new
          · exact inductionHypothesis (List.mem_of_mem_filter old)
          · obtain ⟨rfl, contextMem⟩ := listed new
            rcases kept _ contextMem with held | aimed
            · obtain ⟨other, otherMem, sameContext⟩ := List.mem_map.mp held
              obtain ⟨otherMem, own⟩ := Table.mem_select_iff.mp (List.mem_mergeSort.mp otherMem)
              have earlierRow := inductionHypothesis otherMem
              rw [of_decide_eq_true own, sameContext] at earlierRow
              exact earlierRow
            · exact Or.inr (Or.inr aimed)

/-! ## Attaching -/

theorem evolves_insertMemoryContexts (id : MemoryId) (contextIds : List ContextId)
    (principal scope : String) (audit : ContextAuditDraft) (now : Instant)
    (preserved : List ContextId) :
    Within (MembershipsEvolve target)
      (insertMemoryContexts id contextIds principal scope audit now preserved) := by
  intro db value next ran
  obtain ⟨_, _, ran⟩ := ReadsOnly.of_bind (readsOnly_validateAuditActor audit principal) ran
  obtain ⟨_, ran⟩ := of_require_bind ran
  obtain ⟨_, checked, ran⟩ := ReadsOnly.of_bind (readsOnly_requireUsableContexts _ _ _) ran
  obtain ⟨_, _, ran⟩ := ReadsOnly.of_bind (readsOnly_primaryContextKey contextIds) ran
  obtain ⟨_, ran⟩ := of_require_bind ran
  obtain ⟨_, attached, insertRan, audited⟩ := bind_eq_ok.mp ran
  have usable := usable_of_requireUsableContexts checked
  have joined : MembershipsEvolve target db attached :=
    Relation.ReflTransGen.single (.attach id contextIds now (side_insertMembershipRows insertRan)
      (insertMembershipRows_rows insertRan) (insertMembershipRows_ok insertRan).2.2
      fun contextId contextMem => ⟨principal, _, usable contextId contextMem⟩)
  exact IsTrans.trans db attached next joined ((quiet_insertContextAudit _ _ _ _).evolves audited)

theorem evolves_replaceMemoryContextsTx (id : MemoryId) (contextIds : List ContextId)
    (principal scope : String) (audit : ContextAuditDraft) (now : Instant) :
    Within (MembershipsEvolve target)
      (replaceMemoryContextsTx id contextIds principal scope audit now) := by
  refine Within.bind Within.reads fun _ => ?_
  refine Within.bind (evolves_deleteMembershipRows id) fun _ => ?_
  refine Within.bind (evolves_insertMemoryContexts _ _ _ _ _ _ _) fun _ => ?_
  apply LeavesMembers.evolves
  refine Within.bind (Within.writes fun _ => rfl) fun _ => ?_
  exact Within.bind (Quiet.leavesMembers (quiet_updateMemory fun _ => rfl)) fun _ => Within.pure

theorem evolves_replaceMemoryContexts (id : MemoryId) (contextIds : List ContextId)
    (principal : String) (audit : ContextAuditDraft) (now : Instant) :
    Within (MembershipsEvolve target)
      (replaceMemoryContexts id contextIds principal audit now) := by
  refine Within.bind (readsOnly_validateAuditActor audit principal).within fun _ => ?_
  refine Within.bind Within.require fun _ => ?_
  refine Within.bind Within.reads fun found => ?_
  cases found with
  | none => exact Within.pure
  | some memory =>
      dsimp only
      split
      · intro db value next ran
        have ran := of_reads_bind ran
        obtain ⟨_, checked, ran⟩ := ReadsOnly.of_bind (readsOnly_requireUsableContexts _ _ _) ran
        obtain ⟨_, emptied, deleteRan, ran⟩ := bind_eq_ok.mp ran
        obtain ⟨_, attached, insertRan, ran⟩ := bind_eq_ok.mp ran
        have usable := usable_of_requireUsableContexts checked
        have detached : MembershipsEvolve target db emptied :=
          evolves_deleteMembershipRows id deleteRan
        have joined : MembershipsEvolve target emptied attached := by
          cases writes_eq_ok.mp deleteRan
          exact Relation.ReflTransGen.single (.attach id contextIds now
            (side_insertMembershipRows insertRan) (insertMembershipRows_rows insertRan)
            (insertMembershipRows_ok insertRan).2.2
            fun contextId contextMem => ⟨principal, _, usable contextId contextMem⟩)
        have rest : LeavesMembers (do
            let primaryKey ← primaryContextKey contextIds
            setMetadataScope id primaryKey now
            let _ ← updateMemory id fun row =>
              { row with
                provenance := row.provenance.withConversation primaryKey
                recordRevision := row.recordRevision + 1 }
            insertContextAudit audit none (some id) now
            return WriteOutcome.applied) := by
          refine Within.bind (readsOnly_primaryContextKey contextIds).within fun _ => ?_
          refine Within.bind (Within.writes fun _ => rfl) fun _ => ?_
          refine Within.bind (Quiet.leavesMembers (quiet_updateMemory fun _ => rfl)) fun _ => ?_
          exact Within.bind (quiet_insertContextAudit _ _ _ _).leavesMembers fun _ => Within.pure
        exact IsTrans.trans db emptied next detached
          (IsTrans.trans emptied attached next joined (rest.evolves ran))
      · exact Within.pure

theorem evolves_replaceContextsForUpdate (id : MemoryId) (update : MemoryUpdate)
    (patch : Option MetadataPatch) (contextIds : List ContextId) (principal : String)
    (contextAudit : Option ContextAuditDraft) (revisionAt : Instant) :
    Within (MembershipsEvolve target)
      (replaceContextsForUpdate id update patch contextIds principal contextAudit revisionAt) := by
  refine Within.bind Within.expect fun _ => ?_
  refine Within.bind Within.expect fun _ => ?_
  exact Within.bind Within.require fun _ => evolves_replaceMemoryContextsTx _ _ _ _ _ _

theorem evolves_updateAuthorizedWithMetadataContexts (id : MemoryId) (update : MemoryUpdate)
    (patch : Option MetadataPatch) (contextIds : Option (List ContextId)) (principal : String)
    (audit : AuditDraft) (contextAudit : Option ContextAuditDraft) (now : Instant) :
    Within (MembershipsEvolve target)
      (updateAuthorizedWithMetadataContexts id update patch contextIds principal audit
        contextAudit now) := by
  refine Within.bind Within.require fun _ => ?_
  refine Within.bind Within.reads fun found => ?_
  cases found with
  | none => exact Within.pure
  | some existing =>
      dsimp only
      split
      · refine Within.bind (Within.onSome fun _ _ =>
          (readsOnly_validateCompatibilityCacheUpdate _ _ _).within) fun _ => ?_
        refine Within.bind (quiet_applyUpdateInner _ _ _).evolves fun outcome => ?_
        split
        · refine Within.bind (quiet_applyPatchAfterUpdate _ _ _ _ _ _).evolves fun _ => ?_
          refine Within.bind (Within.onSome fun _ _ => ?_) fun _ => ?_
          · exact evolves_replaceContextsForUpdate _ _ _ _ _ _ _
          · exact Within.bind (quiet_insertAuditDraft _ _).evolves fun _ => Within.pure
        · exact Within.pure
      · exact Within.pure

theorem evolves_replaceContextsOptimistically (id : MemoryId) (contextIds : List ContextId)
    (principal : String) (contextAudit : Option ContextAuditDraft) (revisionAt : Instant) :
    Within (MembershipsEvolve target)
      (replaceContextsOptimistically id contextIds principal contextAudit revisionAt) := by
  refine Within.bind Within.expect fun _ => ?_
  refine Within.bind (readsOnly_optimisticCompatibilityScope _).within fun _ => ?_
  refine Within.bind Within.reads fun _ => ?_
  refine Within.bind (quiet_upsertMetadata _ _).evolves fun _ => ?_
  exact evolves_replaceMemoryContextsTx _ _ _ _ _ _

theorem evolves_updateAuthorizedIfUnmodified (dimensions : Nat)
    (activeProfile : Option EmbeddingProfile) (id : MemoryId) (expectedRevision : Int)
    (update : MemoryUpdate) (patch : Option MetadataPatch)
    (contextIds : Option (List ContextId)) (embedding : Option Embedding) (principal : String)
    (audit : AuditDraft) (contextAudit : Option ContextAuditDraft) (now : Instant) :
    Within (MembershipsEvolve target)
      (updateAuthorizedIfUnmodified dimensions activeProfile id expectedRevision update patch
        contextIds embedding principal audit contextAudit now) := by
  refine Within.bind Within.require fun _ => ?_
  refine Within.bind (Within.onSome fun _ _ => (readsOnly_validateEmbeddingVector _ _).within)
    fun _ => ?_
  refine Within.bind Within.require fun _ => ?_
  refine Within.bind Within.reads fun found => ?_
  cases found with
  | none => exact Within.pure
  | some existing =>
      dsimp only
      split
      · refine Within.bind Within.require fun _ => ?_
        refine Within.bind (Within.onSome fun _ _ =>
          (readsOnly_validateCompatibilityCacheUpdate _ _ _).within) fun _ => ?_
        refine Within.bind (quiet_applyUpdateInner _ _ _).evolves fun _ => ?_
        refine Within.bind (Within.onSome fun _ _ => ?_) fun _ => ?_
        · exact (quiet_storeReplacementEmbedding _ _ _ _).evolves
        refine Within.bind (Within.onSome fun _ _ => ?_) fun _ => ?_
        · exact (quiet_applyMetadataPatch _ _ _ _ _).evolves
        refine Within.bind (Within.onSome fun _ _ => ?_) fun _ => ?_
        · exact (quiet_incrementRecordRevision _ _).evolves
        refine Within.bind (Within.onSome fun _ _ => ?_) fun _ => ?_
        · exact evolves_replaceContextsOptimistically _ _ _ _ _
        exact Within.bind (quiet_insertAuditDraft _ _).evolves fun _ => Within.pure
      · exact Within.pure

theorem evolves_storeGovernedItem (dimensions : Nat) (request : GovernedItem)
    (principal : String) (now : Instant) :
    Within (MembershipsEvolve target) (storeGovernedItem dimensions request principal now) :=
  Within.bind (leavesMembers_storeItemWithMetadata _ _ _ _ _ _).evolves fun _ =>
    evolves_insertMemoryContexts _ _ _ _ _ _ _

theorem evolves_storeWithMetadataContexts (dimensions : Nat) (request : GovernedItem)
    (now : Instant) :
    Within (MembershipsEvolve target) (storeWithMetadataContexts dimensions request now) := by
  refine Within.bind (readsOnly_validateGovernedItem request).within fun _ => ?_
  exact Within.bind (evolves_storeGovernedItem _ _ _ _) fun _ => Within.pure

theorem evolves_storeBatchWithMetadataContexts (dimensions : Nat)
    (items : List MemoryWithEmbedding) (supersedes : List (Option MemoryId))
    (metadata : List MemoryMetadata) (contextIds : List (List ContextId))
    (audits : List AuditDraft) (contextAudits : List ContextAuditDraft) (now : Instant) :
    Within (MembershipsEvolve target)
      (storeBatchWithMetadataContexts dimensions items supersedes metadata contextIds audits
        contextAudits now) := by
  refine Within.bind Within.require fun _ => ?_
  refine Within.bind (Within.mapM fun _ _ => (readsOnly_validateGovernedItem _).within)
    fun _ => ?_
  refine Within.bind (Within.forM fun _ _ => ?_) fun _ => Within.pure
  exact evolves_storeGovernedItem _ _ _ _

/-! ## Moving -/

omit [Host] in
theorem mem_reassignedContexts {contextIds : List ContextId} {first contextId : ContextId}
    (contextMem : contextId ∈ reassignedContexts contextIds first) :
    contextId ∈ contextIds ∨ contextId = first := by
  cases contextIds with
  | nil => exact Or.inr (List.mem_singleton.mp contextMem)
  | cons head rest =>
      simp only [reassignedContexts, List.mem_reverse, List.mem_dedup, List.mem_cons] at contextMem
      rcases contextMem with here | kept
      · exact Or.inr here
      · exact Or.inl (List.mem_cons_of_mem head kept)

omit [Host] in
theorem evolves_reassignMemory {first : ContextId} {id : MemoryId} (isTarget : target id first)
    (targetKey fromScope principal : String) (audit : Option AuditDraft) (now : Instant) :
    Within (MembershipsEvolve target)
      (reassignMemory first targetKey fromScope principal audit now id) := by
  refine Within.bind (Quiet.evolves (quiet_updateMemory fun _ => rfl)) fun _ => ?_
  refine Within.bind (quiet_incrementRecordRevision _ _).evolves fun _ => ?_
  refine Within.bind (LeavesMembers.evolves (Within.writes fun _ => rfl)) fun _ => ?_
  intro db value next ran
  have ran := of_reads_bind ran
  obtain ⟨_, emptied, deleteRan, ran⟩ := bind_eq_ok.mp ran
  obtain ⟨_, joined, insertRan, audited⟩ := bind_eq_ok.mp ran
  have moved : MembershipsEvolve target db joined := by
    cases writes_eq_ok.mp deleteRan
    have side := side_insertMembershipRows insertRan
    have rows := insertMembershipRows_rows insertRan
    have stored := (insertMembershipRows_ok insertRan).2.2
    refine Relation.ReflTransGen.single (.move id _ now side rows stored ?_)
    intro contextId contextMem
    rcases mem_reassignedContexts contextMem with kept | rfl
    · exact Or.inl kept
    · exact Or.inr isTarget
  have audits : Quiet (do
      insertContextAudit
        ⟨principal, "legacy_scope_reassigned", none, none, some (.object
          [("from_scope", .string fromScope), ("to_scope", .string targetKey),
            ("preserved_companion_contexts",
              .number (toString ((reassignedContexts (db.orderedMemberships id) first).length - 1)))])⟩
        (some first) (some id) now
      onSome audit (insertAuditDraft id)) :=
    Within.bind (quiet_insertContextAudit _ _ _ _) fun _ =>
      Within.onSome fun _ _ => quiet_insertAuditDraft _ _
  exact IsTrans.trans db joined next moved (audits.evolves audited)

/-! ## Deletion -/

omit [Host] in
theorem evolves_entombMemory (memory : Memory) (deletedAt : Instant) (deletedBy : Option String) :
    Within (MembershipsEvolve target) (entombMemory memory deletedAt deletedBy) := by
  refine Within.bind (LeavesMembers.evolves (Within.writes fun _ => rfl)) fun _ => ?_
  refine Within.bind (readsOnly_memoryExists memory.id).within fun present => ?_
  cases present with
  | false => exact Within.pure
  | true => exact Within.bind (Within.writes fun db => evolves_dropMemory db _) fun _ => Within.pure

omit [Host] in
theorem evolves_insertAuditDraft (id : MemoryId) (audit : AuditDraft) :
    Within (MembershipsEvolve target) (insertAuditDraft id audit) :=
  (quiet_insertAuditDraft id audit).evolves

/-! ## Commands -/

omit [Host] in
/-- Whether a command writes contexts, their attachments or their policies. -/
def StoreCommand.writesContexts : StoreCommand → Bool
  | .registerScope _ _ _ => true
  | .reassignScope _ _ _ _ _ _ => true
  | .createContext _ _ => true
  | .setContextParent _ _ _ _ => true
  | .setContextLifecycle _ _ _ _ => true
  | .grantContextUse _ _ _ _ => true
  | .revokeContextUse _ _ _ _ => true
  | .replaceContextGrants _ _ _ _ => true
  | .updateContextDefinition _ _ _ _ => true
  | .upsertContextKind _ _ _ _ _ => true
  | .upsertContextKindPolicy _ _ _ _ _ _ => true
  | .upsertContextAnchorPolicy _ _ _ _ _ => true
  | .rollbackUnreferencedLegacyContext _ _ => true
  | _ => false

/-- A command that does not write contexts changes at most memberships. -/
theorem evolves_memberships_body {handle : StoreHandle} {now : Instant} {command : StoreCommand}
    (stays : command.writesContexts = false) :
    Within (MembershipsEvolve target) (command.body handle now) := by
  cases command with
  | store item audit =>
      apply within_discard
      apply LeavesMembers.evolves
      refine Within.bind (leavesMembers_insertPrepared _ _) fun _ => ?_
      exact Within.bind (Within.onSome fun _ _ => (quiet_insertAuditDraft _ _).leavesMembers)
        fun _ => Within.pure
  | storeWithSupersession item supersedes audit =>
      exact within_discard (LeavesMembers.evolves
        (Within.bind (leavesMembers_insertPreparedWithSupersession _ _ _ _) fun _ => Within.pure))
  | storeWithMetadata item supersedes metadata audit =>
      apply within_discard
      refine Within.bind Within.require fun _ => ?_
      exact Within.bind (leavesMembers_storeItemWithMetadata _ _ _ _ _ _).evolves
        fun _ => Within.pure
  | storeWithMetadataContexts request =>
      exact within_discard (evolves_storeWithMetadataContexts _ _ _)
  | storeBatch items audits =>
      exact within_discard (leavesMembers_storeBatch _ _ _).evolves
  | storeBatchWithSupersession items supersedes audits =>
      exact within_discard (leavesMembers_storeBatchWithSupersession _ _ _ _).evolves
  | storeBatchWithMetadata items supersedes metadata audits =>
      exact within_discard (leavesMembers_storeBatchWithMetadata _ _ _ _ _ _).evolves
  | storeBatchWithMetadataContexts items supersedes metadata contextIds audits contextAudits =>
      exact within_discard (evolves_storeBatchWithMetadataContexts _ _ _ _ _ _ _ _)
  | update id changes => exact within_discard (quiet_applyUpdate _ _ _).evolves
  | updateAuthorized id changes principal audit =>
      exact within_discard (quiet_updateAuthorized _ _ _ _ _).evolves
  | updateAuthorizedWithMetadata id changes patch principal audit =>
      exact within_discard (quiet_updateAuthorizedWithMetadata _ _ _ _ _ _).evolves
  | updateAuthorizedWithMetadataContexts id changes patch contextIds principal audit
      contextAudit =>
      exact within_discard (evolves_updateAuthorizedWithMetadataContexts _ _ _ _ _ _ _ _)
  | updateIfUnmodified id expectedRevision changes patch contextIds embedding principal audit
      contextAudit =>
      exact within_discard
        (evolves_updateAuthorizedIfUnmodified _ _ _ _ _ _ _ _ _ _ _ _)
  | bulkUpdate ids changes principal audit =>
      exact within_discard (quiet_bulkUpdateIds _ _ _ _ _).evolves
  | delete id => exact within_discard (within_applyDelete evolves_entombMemory _ _)
  | deleteAuthorized id principal audit =>
      exact within_discard
        (within_deleteAuthorized evolves_entombMemory evolves_insertAuditDraft _ _ _ _)
  | deleteIfUnmodified id expectedRevision principal audit =>
      exact within_discard (within_deleteAuthorizedIfUnmodified evolves_entombMemory
        evolves_insertAuditDraft _ _ _ _ _)
  | bulkDelete ids principal audit =>
      exact within_discard
        (within_bulkDeleteIds evolves_entombMemory evolves_insertAuditDraft _ _ _ _)
  | evictExpired scope audit =>
      exact within_discard
        (within_evictExpired evolves_entombMemory evolves_insertAuditDraft _ _ _)
  | markSupersededBy id supersededBy =>
      exact within_discard (leavesMembers_markSuperseded _ _).evolves
  | markSupersededByAuthorized id supersededBy principal audit =>
      exact within_discard (leavesMembers_markSupersededByAuthorized _ _ _ _).evolves
  | markSupersededIfUnchanged member representative principal audit =>
      exact within_discard (leavesMembers_markSupersededIfUnchanged _ _ _ _).evolves
  | recordSearchImpression ids =>
      exact (quiet_recordSearchImpression _ _).evolves
  | recordMemoryUse decayMass ids principal eventWeight =>
      exact within_discard (quiet_recordMemoryUse _ _ _ _ _).evolves
  | writeAuditEntry id audit => exact (quiet_insertAuditDraft _ _).evolves
  | claimForReembed principal limit token =>
      exact within_discard (quiet_claimForReembed _ _ _ _).evolves
  | releaseEmbeddingClaim id expectedRevision token =>
      exact within_discard (Quiet.evolves (quiet_updateMemoryWhere fun _ => rfl))
  | setEmbedding id embedding expectedRevision =>
      exact (quiet_setEmbedding _ _ _ _ _).evolves
  | verifyEmbeddingProfile profile =>
      exact (quiet_verifyEmbeddingProfile _).evolves
  | reindexEmbeddings profile => exact (quiet_reindexEmbeddings _).evolves
  | upsertMetadata metadata audit =>
      exact (quiet_upsertMetadataAudited _ _ _).evolves
  | migrateMetadata dryRun audit =>
      exact within_discard (quiet_migrateMetadata _ _ _).evolves
  | replaceMemoryContexts id contextIds principal audit =>
      exact within_discard (evolves_replaceMemoryContexts _ _ _ _ _)
  | _ => cases stays

omit [Host] in
/-- Either the memberships change and the contexts stay, or the memberships stay. -/
def MembersOrContexts (target : MemoryId → ContextId → Prop) (db next : Db) : Prop :=
  MembershipsEvolve target db next ∨ next.memoryContexts = db.memoryContexts

omit [Host] in
theorem membersOrContexts_of_leavesMemories {α : Type} {body : StoreM α}
    (inner : LeavesMemories body) : Within (MembersOrContexts target) body :=
  inner.mono fun db next same => by
    simp only [Keeps, Db.memoryTables, Prod.mk.injEq] at same
    exact Or.inr same.2.2.2.1

omit [Host] in
/-- Whether a command reassigns a scope. -/
def StoreCommand.reassigns : StoreCommand → Bool
  | .reassignScope _ _ _ _ _ _ => true
  | _ => false

/-- Every command but a reassignment changes memberships or contexts, never both. -/
theorem membersOrContexts_body {handle : StoreHandle} {now : Instant} {command : StoreCommand}
    (stays : command.reassigns = false) :
    Within (MembersOrContexts target) (command.body handle now) := by
  cases writes : command.writesContexts with
  | false => exact (evolves_memberships_body writes).mono fun _ _ evolve => Or.inl evolve
  | true =>
      cases command with
      | registerScope newId scope principal =>
          exact membersOrContexts_of_leavesMemories (leavesMemories_registerLegacyScopeContext _ _ _ _)
      | createContext draft audit =>
          exact membersOrContexts_of_leavesMemories
            (within_discard (leavesMemories_createContext _ _ _))
      | setContextParent id parentId principal audit =>
          exact membersOrContexts_of_leavesMemories (leavesMemories_setContextParent _ _ _ _ _)
      | setContextLifecycle id lifecycle principal audit =>
          exact membersOrContexts_of_leavesMemories (leavesMemories_setContextLifecycle _ _ _ _ _)
      | grantContextUse id grantee principal audit =>
          exact membersOrContexts_of_leavesMemories (leavesMemories_grantContextUse _ _ _ _ _)
      | revokeContextUse id grantee principal audit =>
          exact membersOrContexts_of_leavesMemories (leavesMemories_revokeContextUse _ _ _ _ _)
      | replaceContextGrants id grantees principal audit =>
          exact membersOrContexts_of_leavesMemories (leavesMemories_replaceContextGrants _ _ _ _ _)
      | updateContextDefinition id patch principal audit =>
          exact membersOrContexts_of_leavesMemories (leavesMemories_updateContextDefinition _ _ _ _ _)
      | upsertContextKind kind displayName enabled principal audit =>
          exact membersOrContexts_of_leavesMemories (leavesMemories_upsertContextKind _ _ _ _ _ _)
      | upsertContextKindPolicy layer policyPrincipal kind policy principal audit =>
          exact membersOrContexts_of_leavesMemories
            (leavesMemories_upsertContextKindPolicy _ _ _ _ _ _ _)
      | upsertContextAnchorPolicy anchorId policyPrincipal policy principal audit =>
          exact membersOrContexts_of_leavesMemories
            (leavesMemories_upsertContextAnchorPolicy _ _ _ _ _ _)
      | rollbackUnreferencedLegacyContext id principal =>
          exact membersOrContexts_of_leavesMemories
            (within_discard (leavesMemories_rollbackUnreferencedLegacyContext _ _))
      | reassignScope newId fromScope toScope origin principal audit => cases stays
      | _ => cases writes

end LocalHold
