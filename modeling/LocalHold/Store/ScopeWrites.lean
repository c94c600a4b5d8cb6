import LocalHold.Store.ScopeCache

/-!
# Writers restore the copies of the scope

What each writer leaves in the scope of the memory it touches.  Replacing
memberships sets the key and then both copies; an update without memberships
may only restate the key; storing a memory requires its copies to state the key
of its first context.
-/

namespace LocalHold

open Relational Transition Transition.Txn

/-! ## Memberships -/

/-- The membership rows of an ordered context list. -/
def membershipRows (id : MemoryId) (items : List (ContextId × Nat)) (now : Instant) :
    List MembershipRow :=
  items.map fun item => ⟨id, item.1, item.2, now⟩

/-- Inserting memberships appends their rows and leaves everything else. -/
theorem insertMembershipRows_ok {id : MemoryId} {contextIds : List ContextId} {now : Instant}
    {db next : Db} {value : Unit}
    (ran : insertMembershipRows id contextIds now db = .ok (value, next)) :
    next.membershipsOf id = db.membershipsOf id ++ membershipRows id contextIds.zipIdx now ∧
      (∃ memberships, next = { db with memoryContexts := memberships }) ∧
      ∀ contextId ∈ contextIds, db.contexts.contains contextId = true := by
  unfold insertMembershipRows at ran
  have appended : next.membershipsOf id =
      db.membershipsOf id ++ membershipRows id contextIds.zipIdx now ∧
      (∃ memberships, next = { db with memoryContexts := memberships }) ∧
      ∀ item ∈ contextIds.zipIdx, db.contexts.contains item.1 = true := by
    generalize contextIds.zipIdx = items at ran ⊢
    induction items generalizing db with
    | nil =>
        cases pure_eq_ok.mp ran
        exact ⟨(List.append_nil _).symm, ⟨_, rfl⟩, fun _ absent => absurd absent List.not_mem_nil⟩
    | cons item rest inductionHypothesis =>
        rw [List.forM_eq_forM, List.forM_cons] at ran
        obtain ⟨_, middle, itemRan, restRan⟩ := bind_eq_ok.mp ran
        have itemRan := of_reads_bind itemRan
        obtain ⟨parents, itemRan⟩ := of_require_bind itemRan
        have itemRan := of_reads_bind itemRan
        obtain ⟨_, itemRan⟩ := of_require_bind itemRan
        have itemRan := of_reads_bind itemRan
        obtain ⟨memberships, inserted, written⟩ := of_expect_bind itemRan
        cases writes_eq_ok.mp written
        obtain ⟨rows, ⟨last, frame⟩, stored⟩ := inductionHypothesis restRan
        rw [Bool.and_eq_true] at parents
        refine ⟨?_, ⟨last, frame⟩, ?_⟩
        · rw [rows, Db.membershipsOf, Table.select_insert? inserted, Db.membershipsOf]
          simp [membershipRows]
        · intro other otherMem
          rcases List.mem_cons.mp otherMem with rfl | later
          · exact parents.2
          · exact stored other later
  obtain ⟨rows, frame, stored⟩ := appended
  refine ⟨rows, frame, fun contextId contextMem => ?_⟩
  obtain ⟨position, indexed⟩ := List.mem_iff_getElem?.mp contextMem
  exact stored (contextId, position) (List.mk_mem_zipIdx_iff_getElem?.mpr indexed)

/-- The key of the first context, or the reserved key for none. -/
def Db.primaryKey (db : Db) (contextIds : List ContextId) : String :=
  ((contextIds.head?.bind fun primary => db.contexts.find? primary).map (·.context.key)).getD
    unresolvedContextKey

/-- A memory with exactly the given memberships has the key of the first. -/
theorem Db.compatibilityScopeKey_of_rows {db : Db} {id : MemoryId} {contextIds : List ContextId}
    {now : Instant} (rows : db.membershipsOf id = membershipRows id contextIds.zipIdx now) :
    db.compatibilityScopeKey id = db.primaryKey contextIds := by
  rw [Db.compatibilityScopeKey_eq, rows, Db.primaryKey]
  cases contextIds with
  | nil => rfl
  | cons primary rest => simp [membershipRows, List.zipIdx_cons]

/-- Memberships inserted together are numbered from zero. -/
theorem Db.ordinals_of_rows {db : Db} {id : MemoryId} {contextIds : List ContextId}
    {now : Instant} (rows : db.membershipsOf id = membershipRows id contextIds.zipIdx now) :
    (db.scopeView id).ordinals = List.range (db.scopeView id).ordinals.length := by
  have ordinals : (db.scopeView id).ordinals = List.range contextIds.length := by
    rw [Db.scopeView, rows, membershipRows, List.map_map]
    exact (List.zipIdx_map_snd 0 contextIds).trans List.range_eq_range'.symm
  rw [ordinals, List.length_range]

theorem primaryContextKey_ok {contextIds : List ContextId} {scope : String} {db next : Db}
    (ran : primaryContextKey contextIds db = .ok (scope, next)) :
    next = db ∧ scope = db.primaryKey contextIds := by
  cases contextIds with
  | nil =>
      cases pure_eq_ok.mp ran
      exact ⟨rfl, rfl⟩
  | cons primary rest =>
      have ran := of_reads_bind ran
      obtain ⟨row, found, done⟩ := of_expect_bind ran
      cases pure_eq_ok.mp done
      exact ⟨rfl, by simp [Db.primaryKey, found]⟩

/-! ## Restoring writers -/

/-- The copies of a memory after both were set to its key. -/
theorem ScopeView.cached_of_set {view : ScopeView} {scope : String} (key : view.key = scope)
    (conversation : ∀ stored, view.conversation = some stored → stored = some scope)
    (metadataScope : ∀ stored, view.metadataScope = some stored → stored = some scope)
    (ordinals : view.ordinals = List.range view.ordinals.length) : view.Cached := by
  refine ⟨?_, ?_, ordinals⟩
  · rw [key]
    exact conversation
  · intro stored present
    rw [key]
    exact Option.some.inj (metadataScope (some stored) present)

theorem scopeView_setMetadataScope {id : MemoryId} {scope : String} {now : Instant}
    {db next : Db} {value : Unit}
    (ran : setMetadataScope id scope now db = .ok (value, next)) :
    next.scopeView id = { db.scopeView id with
      metadataScope := (db.scopeView id).metadataScope.map fun _ => some scope } := by
  cases writes_eq_ok.mp ran
  have scopes : ((db.metadata.update id fun row =>
      { row with
        metadata := { row.metadata with scopeKey := some scope }
        updatedAt := now }).find? id).map (·.metadata.scopeKey) =
      ((db.metadata.find? id).map (·.metadata.scopeKey)).map fun _ => some scope := by
    rw [Table.find?_update, if_pos rfl, Option.map_map, Option.map_map]
    rfl
  simp only [Db.scopeView, scopes]
  rfl

/-- Rewriting a memory row rewrites its provenance copy. -/
theorem scopeView_updateMemory {id : MemoryId} {change : MemoryRow → MemoryRow}
    {keepsKey : ∀ row, (change row).id = row.id} {revise : Option String → Option String}
    (revises : ∀ row, (change row).provenance.sourceConversation =
      revise row.provenance.sourceConversation)
    {db next : Db} {value : Bool}
    (ran : updateMemory id change keepsKey db = .ok (value, next)) :
    next.scopeView id = { db.scopeView id with
      conversation := (db.scopeView id).conversation.map revise } := by
  have ran := of_reads_bind ran
  obtain ⟨_, _, written, done⟩ := bind_eq_ok.mp ran
  cases writes_eq_ok.mp written
  cases pure_eq_ok.mp done
  have conversation :
      ((db.memories.updateWhere (fun row => decide (row.id = id) && true) change keepsKey).find?
        id).map (·.provenance.sourceConversation) =
      ((db.memories.find? id).map (·.provenance.sourceConversation)).map revise := by
    rw [Table.find?_updateWhere, Option.map_map, Option.map_map]
    cases found : db.memories.find? id with
    | none => rfl
    | some row => simp [Table.find?_key found, revises]
  simp only [Db.scopeView, conversation]
  rfl

/-- Both copies set after the key are right. -/
theorem cached_of_setCopies {id : MemoryId} {scope : String} {now : Instant}
    {change : MemoryRow → MemoryRow} {keepsKey : ∀ row, (change row).id = row.id}
    (sets : ∀ row, (change row).provenance.sourceConversation = some scope)
    {db middle next : Db} {first : Unit} {second : Bool}
    (key : db.compatibilityScopeKey id = scope)
    (ordinals : (db.scopeView id).ordinals = List.range (db.scopeView id).ordinals.length)
    (metadataRan : setMetadataScope id scope now db = .ok (first, middle))
    (memoryRan : updateMemory id change keepsKey middle = .ok (second, next)) :
    (next.scopeView id).Cached := by
  have view := @scopeView_updateMemory _ _ _ (fun _ => some scope) sets _ _ _ memoryRan
  rw [scopeView_setMetadataScope metadataRan] at view
  rw [view]
  refine @ScopeView.cached_of_set _ scope key ?_ ?_ ordinals
  · intro stored present
    obtain ⟨_, _, rfl⟩ := Option.map_eq_some_iff.mp present
    rfl
  · intro stored present
    obtain ⟨_, _, rfl⟩ := Option.map_eq_some_iff.mp present
    rfl

theorem membershipsOf_deleteMembershipRows {id : MemoryId} {db next : Db} {value : Unit}
    (ran : deleteMembershipRows id db = .ok (value, next)) : next.membershipsOf id = [] := by
  cases writes_eq_ok.mp ran
  rw [Db.membershipsOf, List.eq_nil_iff_forall_not_mem]
  intro row rowMem
  obtain ⟨kept, own⟩ := Table.mem_select_iff.mp rowMem
  have other := (Table.mem_deleteWhere_iff.mp kept).2
  rw [own] at other
  cases other

/-- A frame of a statement that keeps scopes. -/
theorem KeepsScopes.scopeView_eq {α : Type} {body : StoreM α} (inner : KeepsScopes body)
    {db next : Db} {value : α} (anchored : db.Anchored) (ran : body db = .ok (value, next))
    (id : MemoryId) : next.scopeView id = db.scopeView id :=
  (inner ran anchored).2 id not_false

variable [Host]

theorem touchesScope_insertMemoryContexts (id : MemoryId) (contextIds : List ContextId)
    (principal scope : String) (audit : ContextAuditDraft) (now : Instant)
    (preserved : List ContextId) :
    TouchesScope id (insertMemoryContexts id contextIds principal scope audit now preserved) := by
  refine Within.bind (readsOnly_validateAuditActor audit principal).within fun _ => ?_
  refine Within.bind Within.require fun _ => ?_
  refine Within.bind (readsOnly_requireUsableContexts _ _ _).within fun _ => ?_
  refine Within.bind (readsOnly_primaryContextKey contextIds).within fun _ => ?_
  refine Within.bind Within.require fun _ => ?_
  refine Within.bind (touchesScope_insertMembershipRows id contextIds now) fun _ => ?_
  exact (keepsScopes_insertContextAudit _ _ _ _).touches

/-- Memberships are inserted only under a scope that is the key of the first. -/
theorem insertMemoryContexts_ok {id : MemoryId} {contextIds : List ContextId}
    {principal scope : String} {audit : ContextAuditDraft} {now : Instant}
    {preserved : List ContextId} {db next : Db} {value : Unit}
    (without : db.membershipsOf id = [])
    (ran : insertMemoryContexts id contextIds principal scope audit now preserved db =
      .ok (value, next)) :
    next.compatibilityScopeKey id = scope ∧ next.memories = db.memories ∧
      next.metadata = db.metadata ∧
      (next.scopeView id).ordinals = List.range (next.scopeView id).ordinals.length := by
  obtain ⟨_, _, ran⟩ := (readsOnly_validateAuditActor audit principal).of_bind ran
  obtain ⟨_, ran⟩ := of_require_bind ran
  obtain ⟨_, _, ran⟩ := (readsOnly_requireUsableContexts _ _ _).of_bind ran
  obtain ⟨expected, keyed, ran⟩ := (readsOnly_primaryContextKey contextIds).of_bind ran
  obtain ⟨stated, ran⟩ := of_require_bind ran
  obtain ⟨_, middle, inserted, audited⟩ := bind_eq_ok.mp ran
  cases writes_eq_ok.mp audited
  obtain ⟨rows, ⟨memberships, rfl⟩, _⟩ := insertMembershipRows_ok inserted
  rw [without, List.nil_append] at rows
  refine ⟨?_, rfl, rfl, Db.ordinals_of_rows rows⟩
  rw [beq_iff_eq.mp stated, (primaryContextKey_ok keyed).2]
  exact Db.compatibilityScopeKey_of_rows rows

/-- A memory is touched and ends with right copies. -/
def ScopeRestored (id : MemoryId) (db next : Db) : Prop :=
  ScopeTouches (fun other => other = id) db next ∧ (db.Anchored → (next.scopeView id).Cached)

omit [Host] in
theorem ScopeRestored.safe {id : MemoryId} {db next : Db} (restored : ScopeRestored id db next) :
    ScopeSafe db next :=
  restored.1.safe fun cached => restored.2 cached.anchored

omit [Host] in
/-- What touches a memory before it is restored does not matter. -/
theorem ScopeRestored.after {id : MemoryId} {db middle next : Db}
    (restored : ScopeRestored id middle next)
    (touches : ScopeTouches (fun other => other = id) db middle) : ScopeRestored id db next :=
  ⟨IsTrans.trans db middle next touches restored.1, fun anchored =>
    restored.2 (touches anchored).1⟩

omit [Host] in
/-- What leaves all scopes may follow a restoration. -/
theorem ScopeRestored.followed {id : MemoryId} {db middle next : Db}
    (restored : ScopeRestored id db middle) (kept : ScopeTouches (fun _ => False) middle next) :
    ScopeRestored id db next := by
  refine ⟨IsTrans.trans db middle next restored.1 kept.weaken, fun anchored => ?_⟩
  rw [(kept (restored.1 anchored).1).2 id not_false]
  exact restored.2 anchored

omit [Host] in
theorem restored_bind {α β : Type} {id : MemoryId} {first : StoreM α} {rest : α → StoreM β}
    (firstTouches : TouchesScope id first)
    (restRestores : ∀ value, Within (ScopeRestored id) (rest value)) :
    Within (ScopeRestored id) (first >>= rest) :=
  firstTouches.comp restRestores fun _ _ _ touches restored => restored.after touches

/-- Replacing memberships restores the copies. -/
theorem restores_replaceMemoryContextsTx (id : MemoryId) (contextIds : List ContextId)
    (principal scope : String) (audit : ContextAuditDraft) (now : Instant) :
    Within (ScopeRestored id)
      (replaceMemoryContextsTx id contextIds principal scope audit now) := by
  intro db value next ran
  have ran := of_reads_bind ran
  obtain ⟨_, emptied, deleteRan, ran⟩ := bind_eq_ok.mp ran
  obtain ⟨_, joined, insertRan, ran⟩ := bind_eq_ok.mp ran
  obtain ⟨_, labelled, metadataRan, ran⟩ := bind_eq_ok.mp ran
  obtain ⟨_, _, memoryRan, done⟩ := bind_eq_ok.mp ran
  cases pure_eq_ok.mp done
  refine ⟨?_, fun _ => ?_⟩
  · refine IsTrans.trans db emptied next (touchesScope_deleteMembershipRows id deleteRan) ?_
    refine IsTrans.trans emptied joined next
      (touchesScope_insertMemoryContexts _ _ _ _ _ _ _ insertRan) ?_
    exact IsTrans.trans joined labelled next (touchesScope_setMetadataScope _ _ _ metadataRan)
      (touchesScope_updateMemoryWhere _ _ _ _ memoryRan)
  · obtain ⟨key, _, _, ordinals⟩ :=
      insertMemoryContexts_ok (membershipsOf_deleteMembershipRows deleteRan) insertRan
    exact cached_of_setCopies (fun _ => rfl) key ordinals metadataRan memoryRan

/-- `replace_memory_contexts` restores the copies. -/
theorem within_replaceMemoryContexts {relation : Db → Db → Prop} [Std.Refl relation]
    [IsTrans Db relation]
    (restored : ∀ id db next, ScopeRestored id db next → relation db next) (id : MemoryId)
    (contextIds : List ContextId) (principal : String) (audit : ContextAuditDraft)
    (now : Instant) :
    Within relation (replaceMemoryContexts id contextIds principal audit now) := by
  refine Within.bind (readsOnly_validateAuditActor audit principal).within fun _ => ?_
  refine Within.bind Within.require fun _ => ?_
  refine Within.bind Within.reads fun found => ?_
  cases found with
  | none => exact Within.pure
  | some memory =>
      dsimp only
      split
      · refine Within.bind Within.reads fun _ => ?_
        refine Within.bind (readsOnly_requireUsableContexts _ _ _).within fun _ => ?_
        refine Within.mono ?_ (restored id)
        intro db value next ran
        obtain ⟨_, emptied, deleteRan, ran⟩ := bind_eq_ok.mp ran
        obtain ⟨_, joined, insertRan, ran⟩ := bind_eq_ok.mp ran
        obtain ⟨primaryKey, keyed, ran⟩ := (readsOnly_primaryContextKey contextIds).of_bind ran
        obtain ⟨_, labelled, metadataRan, ran⟩ := bind_eq_ok.mp ran
        obtain ⟨_, written, memoryRan, ran⟩ := bind_eq_ok.mp ran
        obtain ⟨_, _, audited, done⟩ := bind_eq_ok.mp ran
        cases pure_eq_ok.mp done
        cases writes_eq_ok.mp audited
        obtain ⟨rows, _, _⟩ := insertMembershipRows_ok insertRan
        rw [membershipsOf_deleteMembershipRows deleteRan, List.nil_append] at rows
        have key : joined.compatibilityScopeKey id = primaryKey := by
          rw [Db.compatibilityScopeKey_of_rows rows, (primaryContextKey_ok keyed).2]
        refine ⟨?_, fun _ => ?_⟩
        · refine IsTrans.trans db emptied _ (touchesScope_deleteMembershipRows id deleteRan) ?_
          refine IsTrans.trans emptied joined _
            (touchesScope_insertMembershipRows _ _ _ insertRan) ?_
          refine IsTrans.trans joined labelled _
            (touchesScope_setMetadataScope _ _ _ metadataRan) ?_
          exact IsTrans.trans labelled written _
            (touchesScope_updateMemoryWhere _ _ _ _ memoryRan) (ScopeTouches.of_tables rfl)
        · have cached : (written.scopeView id).Cached :=
            cached_of_setCopies (fun _ => rfl) key (Db.ordinals_of_rows rows) metadataRan memoryRan
          exact cached
      · exact Within.pure

/-! ## Updates -/

omit [Host] in
/-- An update restates the conversation or leaves it. -/
theorem scopeView_applyUpdateInner {id : MemoryId} {update : MemoryUpdate} {now : Instant}
    {db next : Db} {outcome : AuthorizedUpdateOutcome} (anchored : db.Anchored)
    (ran : applyUpdateInner id update now db = .ok (outcome, next)) :
    ScopeTouches (fun other => other = id) db next ∧
      next.scopeView id = { db.scopeView id with
        conversation := (db.scopeView id).conversation.map fun stored =>
          update.sourceConversation.or stored } := by
  have later : ∀ affected : Bool, KeepsScopes (if affected then do
      let reembedRevision ← dropStaleEmbedding id update
      onSome update.entities (replaceEntities id)
      return (⟨.applied, reembedRevision⟩ : AuthorizedUpdateOutcome)
    else return .refused .notFound) := by
    intro affected
    split
    · refine Within.bind ?_ fun _ => ?_
      · unfold dropStaleEmbedding
        split
        · refine Within.bind (keepsScopes_deleteEmbeddingMapRow id) fun _ => ?_
          exact Within.bind (readsOnly_embeddingRevision id).within fun _ => Within.pure
        · exact Within.pure
      · exact Within.bind (Within.onSome fun _ _ => keepsScopes_replaceEntities _ _)
          fun _ => Within.pure
    · exact Within.pure
  obtain ⟨affected, middle, columnsRan, ran⟩ := bind_eq_ok.mp ran
  have columns : ScopeTouches (fun other => other = id) db middle ∧
      middle.scopeView id = { db.scopeView id with
        conversation := (db.scopeView id).conversation.map fun stored =>
          update.sourceConversation.or stored } := by
    unfold applyUpdateColumns at columnsRan
    split at columnsRan
    · refine ⟨touchesScope_updateMemoryWhere _ _ _ _ columnsRan, ?_⟩
      refine scopeView_updateMemory (fun row => ?_) columnsRan
      simp only [MemoryUpdate.setClause]
      cases update.sourceConversation <;> rfl
    · rename_i noColumns
      have silent : update.sourceConversation = none := by
        simp only [MemoryUpdate.hasColumnUpdates, Bool.or_eq_true, not_or,
          Option.not_isSome_iff_eq_none] at noColumns
        exact noColumns.2
      have kept : KeepsScopes (if update.entities.isSome then
          updateMemory id fun row => { row with recordRevision := row.recordRevision + 1 }
        else memoryExists id) := by
        split
        · exact keepsScopes_updateMemory fun _ => rfl
        · exact (readsOnly_memoryExists id).within
      refine ⟨kept.touches columnsRan, ?_⟩
      rw [kept.scopeView_eq anchored columnsRan, silent]
      simp
  refine ⟨IsTrans.trans db middle next columns.1 ((later affected).touches ran), ?_⟩
  rw [(later affected).scopeView_eq (columns.1 anchored).1 ran, columns.2]

omit [Host] in
theorem touchesScope_applyUpdateInner (id : MemoryId) (update : MemoryUpdate) (now : Instant) :
    TouchesScope id (applyUpdateInner id update now) := by
  intro db value next ran anchored
  exact (scopeView_applyUpdateInner anchored ran).1 anchored

omit [Host] in
theorem updateMemory_affects {id : MemoryId} {change : MemoryRow → MemoryRow}
    {keepsKey : ∀ row, (change row).id = row.id} {db next : Db} {row : MemoryRow} {affected : Bool}
    (found : db.memories.find? id = some row)
    (ran : updateMemory id change keepsKey db = .ok (affected, next)) : affected = true := by
  have ran := of_reads_bind ran
  obtain ⟨_, _, _, done⟩ := bind_eq_ok.mp ran
  rw [found] at done
  cases pure_eq_ok.mp done
  rfl

omit [Host] in
/-- An update of a stored memory is applied. -/
theorem applied_of_applyUpdateInner {id : MemoryId} {update : MemoryUpdate} {now : Instant}
    {db next : Db} {row : MemoryRow} {outcome : AuthorizedUpdateOutcome}
    (found : db.memories.find? id = some row)
    (ran : applyUpdateInner id update now db = .ok (outcome, next)) :
    outcome.outcome = .applied := by
  obtain ⟨affected, middle, columnsRan, ran⟩ := bind_eq_ok.mp ran
  have present : affected = true := by
    unfold applyUpdateColumns at columnsRan
    split at columnsRan
    · exact updateMemory_affects found columnsRan
    · split at columnsRan
      · exact updateMemory_affects found columnsRan
      · cases reads_eq_ok.mp columnsRan
        rw [Table.contains, found, Option.isSome_some]
  rw [present] at ran
  obtain ⟨_, _, _, ran⟩ := bind_eq_ok.mp ran
  obtain ⟨_, _, _, done⟩ := bind_eq_ok.mp ran
  cases pure_eq_ok.mp done
  rfl

omit [Host] in
/-- An accepted update restates the key, if it states a scope at all. -/
theorem validateCompatibilityCacheUpdate_ok {id : MemoryId} {update : MemoryUpdate}
    {patch : Option MetadataPatch} {db : Db} {result : Unit × Db}
    (ran : validateCompatibilityCacheUpdate id update patch db = .ok result) :
    (∀ scope, update.sourceConversation = some scope → scope = db.compatibilityScopeKey id) ∧
      ∀ scope, patch.bind (·.scopeKey) = some scope → scope = db.compatibilityScopeKey id := by
  rw [validateCompatibilityCacheUpdate] at ran
  split at ran
  · rename_i silent
    rw [Bool.and_eq_true, Option.isNone_iff_eq_none, Option.isNone_iff_eq_none] at silent
    rw [silent.1, silent.2]
    constructor
    · intro scope absent
      cases absent
    · intro scope absent
      cases absent
  · have ran := of_reads_bind ran
    obtain ⟨conversation, ran⟩ := of_require_bind ran
    have metadataScope := (require_eq_ok.mp ran).1
    refine ⟨fun scope stated => ?_, fun scope stated => ?_⟩
    · rw [stated] at conversation
      exact beq_iff_eq.mp conversation
    · rw [stated] at metadataScope
      exact beq_iff_eq.mp metadataScope

omit [Host] in
/-- Restating the key keeps the provenance copy right. -/
theorem ScopeView.Cached.restated {view : ScopeView} (cached : view.Cached)
    {stated : Option String} (restates : ∀ scope, stated = some scope → scope = view.key) :
    ({ view with
      conversation := view.conversation.map fun stored => stated.or stored } :
        ScopeView).Cached := by
  refine ⟨?_, cached.metadataScope, cached.ordinals⟩
  intro stored present
  obtain ⟨before, found, rfl⟩ := Option.map_eq_some_iff.mp present
  cases given : stated with
  | none => exact cached.conversation before found
  | some scope =>
      rw [restates scope given]
      rfl

omit [Host] in
/-- A validated update keeps the copies right. -/
theorem cached_applyUpdateInner {id : MemoryId} {update : MemoryUpdate} {now : Instant}
    {db next : Db} {outcome : AuthorizedUpdateOutcome} (cached : db.ScopesCached)
    (restates : ∀ scope, update.sourceConversation = some scope →
      scope = db.compatibilityScopeKey id)
    (ran : applyUpdateInner id update now db = .ok (outcome, next)) : next.ScopesCached := by
  obtain ⟨touches, view⟩ := scopeView_applyUpdateInner cached.anchored ran
  refine touches.safe (fun _ => ?_) cached
  rw [view]
  exact (cached.cached id).restated restates

omit [Host] in
/-- An update checked against the key and then applied is safe. -/
theorem safe_validatedUpdate {α : Type} {id : MemoryId} {update : MemoryUpdate} {now : Instant}
    {rest : AuthorizedUpdateOutcome → StoreM α} (restSafe : ∀ outcome, Within ScopeSafe (rest outcome)) :
    Within ScopeSafe (do
      validateCompatibilityCacheUpdate id update none
      let outcome ← applyUpdateInner id update now
      rest outcome) := by
  intro db value next ran cached
  obtain ⟨_, checked, ran⟩ := (readsOnly_validateCompatibilityCacheUpdate _ _ _).of_bind ran
  obtain ⟨outcome, middle, updateRan, ran⟩ := bind_eq_ok.mp ran
  exact restSafe outcome ran
    (cached_applyUpdateInner cached (validateCompatibilityCacheUpdate_ok checked).1 updateRan)

/-! ## Metadata patches -/

omit [Host] in
theorem scopeView_upsertMetadata {metadata : MemoryMetadata} {now : Instant} {db next : Db}
    {value : Unit} (ran : upsertMetadata metadata now db = .ok (value, next)) :
    next.scopeView metadata.memoryId =
      { db.scopeView metadata.memoryId with metadataScope := some metadata.scopeKey } := by
  have ran := of_reads_bind ran
  obtain ⟨_, written⟩ := of_require_bind ran
  cases writes_eq_ok.mp written
  simp only [Db.scopeView, Table.find?_upsert, if_true, Option.map_some]
  rfl

/-- A patch keeps the first scope among its own, the stored one and a fallback. -/
theorem scopeView_applyMetadataPatch {id : MemoryId} {patch : MetadataPatch}
    {fallback : Option String} {principal : String} {now : Instant} {db next : Db} {value : Unit}
    (ran : applyMetadataPatch id patch fallback principal now db = .ok (value, next)) :
    next.scopeView id = { db.scopeView id with
      metadataScope := some ((patch.scopeKey.or (db.scopeView id).metadataScope.join).or
        fallback) } := by
  have ran := of_reads_bind ran
  refine (scopeView_upsertMetadata ran).trans ?_
  simp only [mergeMetadataPatch, Db.scopeView]
  cases db.metadata.find? id <;> rfl

theorem touchesScope_applyMetadataPatch (id : MemoryId) (patch : MetadataPatch)
    (fallback : Option String) (principal : String) (now : Instant) :
    TouchesScope id (applyMetadataPatch id patch fallback principal now) :=
  Within.bind Within.reads fun existing =>
    touchesScope_upsertMetadata (mergeMetadataPatch id patch existing fallback principal) now

/-- A validated patch keeps the copies right; a memory without metadata takes
its scope from the provenance copy. -/
theorem cached_applyMetadataPatch {id : MemoryId} {patch : MetadataPatch}
    {fallback : Option String} {principal : String} {now : Instant} {db next : Db} {value : Unit}
    (cached : db.ScopesCached)
    (restates : ∀ scope, patch.scopeKey = some scope → scope = db.compatibilityScopeKey id)
    (fallbackKey : ∀ scope, fallback = some scope → scope = db.compatibilityScopeKey id)
    (ran : applyMetadataPatch id patch fallback principal now db = .ok (value, next)) :
    next.ScopesCached := by
  refine (touchesScope_applyMetadataPatch _ _ _ _ _ ran).safe (fun _ => ?_) cached
  rw [scopeView_applyMetadataPatch ran]
  refine ⟨(cached.cached id).conversation, ?_, (cached.cached id).ordinals⟩
  intro stored present
  have chosen := Option.some.inj present
  rcases Option.or_eq_some_iff.mp chosen with own | ⟨_, given⟩
  · rcases Option.or_eq_some_iff.mp own with stated | ⟨_, kept⟩
    · exact restates stored stated
    · exact (cached.cached id).metadataScope stored (Option.join_eq_some_iff.mp kept)
  · exact fallbackKey stored given

/-- The metadata part of a validated update is safe. -/
theorem cached_applyPatchAfterUpdate {id : MemoryId} {update : MemoryUpdate}
    {patch : Option MetadataPatch} {existing : Memory} {principal : String} {now : Instant}
    {db next : Db} {value : Unit} (cached : db.ScopesCached)
    (restates : ∀ scope, patch.bind (·.scopeKey) = some scope →
      scope = db.compatibilityScopeKey id)
    (fallbackKey : ∀ scope, existing.provenance.sourceConversation = some scope →
      scope = db.compatibilityScopeKey id)
    (ran : applyPatchAfterUpdate id update patch existing principal now db = .ok (value, next)) :
    next.ScopesCached := by
  obtain ⟨_, middle, patchRan, ran⟩ := bind_eq_ok.mp ran
  have patched : middle.ScopesCached := by
    cases patch with
    | none =>
        cases pure_eq_ok.mp patchRan
        exact cached
    | some changes => exact cached_applyMetadataPatch cached restates fallbackKey patchRan
  have kept : KeepsScopes (onSome (if update.metadataOnly then patch else none) fun _ =>
      incrementRecordRevision id "saving") :=
    Within.onSome fun _ _ => keepsScopes_incrementRecordRevision _ _
  exact kept.safe ran patched

theorem touchesScope_applyPatchAfterUpdate (id : MemoryId) (update : MemoryUpdate)
    (patch : Option MetadataPatch) (existing : Memory) (principal : String) (now : Instant) :
    TouchesScope id (applyPatchAfterUpdate id update patch existing principal now) := by
  refine Within.bind (Within.onSome fun _ _ => touchesScope_applyMetadataPatch _ _ _ _ _)
    fun _ => ?_
  exact (KeepsScopes.touches (Within.onSome fun _ _ => keepsScopes_incrementRecordRevision _ _))

omit [Host] in
/-- The provenance copy of a fetched memory is its key. -/
theorem Db.ScopesCached.fetched {db : Db} (cached : db.ScopesCached) {id : MemoryId}
    {row : MemoryRow} (found : db.memories.find? id = some row) :
    ∀ scope, row.toMemory.provenance.sourceConversation = some scope →
      scope = db.compatibilityScopeKey id := by
  intro scope stated
  have key := (cached.cached id).conversation row.provenance.sourceConversation
    (by simp only [Db.scopeView, found, Option.map_some])
  exact Option.some.inj (stated.symm.trans key)

/-- After a validated update the key is the one before it. -/
theorem cached_validatedPatch {id : MemoryId} {update : MemoryUpdate}
    {patch : Option MetadataPatch} {row : MemoryRow} {principal : String} {now : Instant}
    {db middle next : Db} {outcome : AuthorizedUpdateOutcome} {value : Unit}
    (cached : db.ScopesCached) (found : db.memories.find? id = some row)
    {result : Unit × Db} (checked : validateCompatibilityCacheUpdate id update patch db = .ok result)
    (updateRan : applyUpdateInner id update now db = .ok (outcome, middle))
    (patchRan : applyPatchAfterUpdate id update patch row.toMemory principal now middle =
      .ok (value, next)) : next.ScopesCached := by
  obtain ⟨conversation, metadataScope⟩ := validateCompatibilityCacheUpdate_ok checked
  have sameKey : middle.compatibilityScopeKey id = db.compatibilityScopeKey id :=
    congrArg ScopeView.key (scopeView_applyUpdateInner cached.anchored updateRan).2
  have updated := cached_applyUpdateInner cached conversation updateRan
  refine cached_applyPatchAfterUpdate updated ?_ ?_ patchRan
  · rw [sameKey]
    exact metadataScope
  · rw [sameKey]
    exact cached.fetched found

end LocalHold
