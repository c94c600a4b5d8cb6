import LocalHold.Server.MembershipLaw
import LocalHold.Server.ReservedKey
import LocalHold.Store.ScopeFlags

/-!
# Quality flags and memberships

The writers that replace the memberships of a memory without a metadata patch
keep its quality flags.  A memory is flagged for a missing scope exactly when it
is in no context as long as these writers neither take a memory out of its last
context nor put one into its first.
-/

namespace LocalHold

open Relational Transition Transition.Txn

theorem membershipRows_eq_nil_iff {id : MemoryId} {contextIds : List ContextId} {now : Instant} :
    membershipRows id contextIds.zipIdx now = [] ↔ contextIds = [] := by
  rw [membershipRows, List.map_eq_nil_iff, List.zipIdx_eq_nil_iff]

theorem contains_migrationQualityFlags (row : PreparedMigrationMetadata) :
    (migrationQualityFlags row).contains "missing_scope" = row.unresolvedScope := by
  obtain ⟨id, scopeKey, agentLabel, unresolvedScope, oversized, codeDerived⟩ := row
  cases unresolvedScope <;> cases oversized <;> cases codeDerived <;> rfl

variable [Host]

/-! ## Keys of contexts -/

theorem Db.KeysUnreserved.key_ne {db : Db} (free : db.KeysUnreserved) {row : ContextRow}
    (rowMem : row ∈ db.contexts) : normalizeContextKey row.context.key ≠ unresolvedContextKey := by
  rw [← free.normalized row rowMem]
  exact free.unreserved row rowMem

theorem Db.KeysUnreserved.of_contexts {db next : Db} (free : db.KeysUnreserved)
    (same : Keeps Db.contextTables db next) : next.KeysUnreserved := by
  have contexts : next.contexts = db.contexts := (Prod.mk.inj same).1
  constructor
  · rw [contexts]
    exact free.normalized
  · rw [contexts]
    exact free.unreserved

/-- The scope of a memory is the reserved key exactly when it is in no context. -/
theorem Db.KeysUnreserved.key_iff {db : Db} (free : db.KeysUnreserved)
    (cached : db.ScopesCached)
    (normal : normalizeContextKey unresolvedContextKey = unresolvedContextKey) (id : MemoryId) :
    normalizeContextKey (db.compatibilityScopeKey id) = unresolvedContextKey ↔
      db.membershipsOf id = [] := by
  constructor
  · intro unresolved
    have scope := (cached.hasScope_iff id _).mpr rfl
    generalize db.compatibilityScopeKey id = key at unresolved scope
    cases scope with
    | primary membership _ _ _ row found =>
        exact absurd unresolved (free.key_ne (Table.mem_of_find? found))
    | unresolved none =>
        rw [Db.membershipsOf, List.eq_nil_iff_forall_not_mem]
        intro membership membershipMem
        obtain ⟨stored, own⟩ := Table.mem_select_iff.mp membershipMem
        exact cached.no_memberships none membership stored (decide_eq_true_eq.mp own)
  · intro none
    rw [Db.compatibilityScopeKey_eq, none]
    exact normal

theorem Db.KeysUnreserved.key_eq_iff {db : Db} (free : db.KeysUnreserved)
    (cached : db.ScopesCached)
    (normal : normalizeContextKey unresolvedContextKey = unresolvedContextKey) (id : MemoryId) :
    db.compatibilityScopeKey id = unresolvedContextKey ↔ db.membershipsOf id = [] := by
  constructor
  · intro unresolved
    refine (free.key_iff cached normal id).mp ?_
    rw [unresolved, normal]
  · intro none
    rw [Db.compatibilityScopeKey_eq, none]
    rfl

/-! ## Flags -/

/-- Copies of scopes are right, no context carries the reserved key, and flags
agree with the stated scopes. -/
structure Db.FlagsScopes (db : Db) : Prop where
  scopes : db.ScopesCached
  keys : db.KeysUnreserved
  stated : db.ScopesStated

/-- Flags still agree. -/
def KeepsFlags (before after : Db) : Prop :=
  before.FlagsScopes → after.FlagsScopes

instance : Std.Refl KeepsFlags :=
  ⟨fun _ held => held⟩

instance : IsTrans Db KeepsFlags :=
  ⟨fun _ _ _ early late held => late (early held)⟩

/-- Memories are flagged exactly when they are in no context. -/
theorem Db.FlagsScopes.flag_iff {db : Db} (held : db.FlagsScopes)
    (normal : normalizeContextKey unresolvedContextKey = unresolvedContextKey) {id : MemoryId}
    {row : MetadataRow} (found : db.metadata.find? id = some row) :
    row.metadata.missesScope = true ↔ db.membershipsOf id = [] := by
  obtain ⟨key, keyed, flagged⟩ := held.stated.found found
  have copied : key = db.compatibilityScopeKey id := by
    refine (held.scopes.cached id).metadataScope key ?_
    rw [Db.scopeView, found, Option.map_some, keyed]
  rw [flagged, copied]
  exact held.keys.key_iff held.scopes normal id

/-- A scope written to existing metadata is the reserved key exactly when the
memory ends in no context. -/
theorem Rescopes.scope_iff {id : MemoryId} {scope : String} {now : Instant} {db next : Db}
    (rescopes : Rescopes id scope now db next) (cached : next.ScopesCached)
    (free : next.KeysUnreserved)
    (normal : normalizeContextKey unresolvedContextKey = unresolvedContextKey)
    {row : MetadataRow} (found : db.metadata.find? id = some row) :
    normalizeContextKey scope = unresolvedContextKey ↔ next.membershipsOf id = [] := by
  have copied : scope = next.compatibilityScopeKey id := by
    refine (cached.cached id).metadataScope scope ?_
    rw [Db.scopeView, rescopes, if_pos rfl, found]
    rfl
  rw [copied]
  exact free.key_iff cached normal id

/-! ## Stores -/

/-- A governed store names the scope of the memory and flags it exactly when it
passes no contexts. -/
def GovernedItem.FlagsContexts (request : GovernedItem) : Prop :=
  request.metadata.scopeKey.isSome = true ∧
    (request.metadata.missesScope = true ↔ request.contextIds = [])

theorem flags_storeGovernedItem
    (normal : normalizeContextKey unresolvedContextKey = unresolvedContextKey) {dimensions : Nat}
    {request : GovernedItem} {principal : String} {now : Instant}
    (named : request.metadata.memoryId = request.item.memory.id)
    (stated : request.item.memory.provenance.sourceConversation =
      some request.compatibilityScope) (follows : request.FlagsContexts) :
    Within KeepsFlags (storeGovernedItem dimensions request principal now) := by
  intro db value next ran held
  have cached := (restores_storeGovernedItem named stated ran).safe held.scopes
  have free := held.keys.of_contexts (leavesContexts_storeGovernedItem _ _ _ _ ran)
  refine ⟨cached, free, ?_⟩
  obtain ⟨_, described, storeRan, contextsRan⟩ := bind_eq_ok.mp ran
  obtain ⟨_, stored, insertRan, metadataRan⟩ := bind_eq_ok.mp storeRan
  have inserted := keepsMetadata_insertPreparedWithSupersession _ _ _ _ insertRan
  have joined := rowRules_keepsMetadata.insertMemoryContexts _ _ _ _ _ _ _ contextsRan
  have unjoined : described.membershipsOf request.item.memory.id = [] := by
    have metadataRan := of_reads_bind metadataRan
    obtain ⟨_, written⟩ := of_require_bind metadataRan
    cases writes_eq_ok.mp written
    exact (insertPreparedWithSupersession_scope held.scopes.anchored insertRan).2.1
  have members : next.membershipsOf request.item.memory.id = [] ↔ request.contextIds = [] := by
    rw [membershipsOf_insertMemoryContexts contextsRan, unjoined, List.nil_append,
      membershipRows_eq_nil_iff]
  obtain ⟨key, _, _, _⟩ := insertMemoryContexts_ok unjoined contextsRan
  obtain ⟨scope, keyed⟩ := Option.isSome_iff_exists.mp follows.1
  have same : request.compatibilityScope = scope := by
    rw [GovernedItem.compatibilityScope, keyed, Option.getD_some]
  have states : request.metadata.StatesScope := by
    refine ⟨scope, keyed, ?_⟩
    rw [follows.2, ← members, ← free.key_iff cached normal, key, same]
  exact ((held.stated.of_metadata inserted).upsert states metadataRan).of_metadata joined

theorem flags_storeWithMetadataContexts
    (normal : normalizeContextKey unresolvedContextKey = unresolvedContextKey) (dimensions : Nat)
    {request : GovernedItem} (now : Instant) (follows : request.FlagsContexts) :
    Within KeepsFlags (storeWithMetadataContexts dimensions request now) := by
  intro db value next ran held
  obtain ⟨principal, checked, ran⟩ := (readsOnly_validateGovernedItem request).of_bind ran
  obtain ⟨named, stated⟩ := validateGovernedItem_states checked
  obtain ⟨_, _, stored, done⟩ := bind_eq_ok.mp ran
  cases pure_eq_ok.mp done
  exact flags_storeGovernedItem normal named stated follows stored held

theorem flags_storeBatchWithMetadataContexts
    (normal : normalizeContextKey unresolvedContextKey = unresolvedContextKey) (dimensions : Nat)
    {items : List MemoryWithEmbedding} {supersedes : List (Option MemoryId)}
    {metadata : List MemoryMetadata} {contextIds : List (List ContextId)}
    {audits : List AuditDraft} {contextAudits : List ContextAuditDraft} (now : Instant)
    (follows : ∀ request ∈ governedItems items supersedes metadata contextIds audits contextAudits,
      request.FlagsContexts) :
    Within KeepsFlags (storeBatchWithMetadataContexts dimensions items supersedes metadata contextIds
      audits contextAudits now) := by
  intro db value next ran
  obtain ⟨_, ran⟩ := of_require_bind ran
  obtain ⟨principals, checked, checkRan, ran⟩ := bind_eq_ok.mp ran
  have unchanged : checked = db :=
    Within.mapM (fun request _ => readsOnly_validateGovernedItem request) checkRan
  have valid := @mapM_ok_forall _ _ _ _ _ _
    (fun request : GovernedItem => request.metadata.memoryId = request.item.memory.id ∧
      request.item.memory.provenance.sourceConversation = some request.compatibilityScope)
    (fun _ _ _ _ ran => validateGovernedItem_states ran) _ _ checkRan
  rw [unchanged] at ran
  obtain ⟨_, _, stored, done⟩ := bind_eq_ok.mp ran
  cases pure_eq_ok.mp done
  refine Within.forM (fun entry entryMem => ?_) stored
  have listed := (List.of_mem_zip entryMem).1
  obtain ⟨named, stated⟩ := valid entry.1 listed
  exact flags_storeGovernedItem normal named stated (follows entry.1 listed)

/-! ## Updates -/

/-- Whether an optimistic update leaves the flag set before it replaces the
memberships: a patch computes it from the patched scope, otherwise it stays. -/
def Db.FlaggedAfter (db : Db) (id : MemoryId) : Option MetadataPatch → Prop
  | some patch => normalizeContextKey (db.patchedScope id patch) = unresolvedContextKey
  | none => db.metadata.contains id = true ∧ db.membershipsOf id = []

theorem stated_replaceContextsOptimistically
    (normal : normalizeContextKey unresolvedContextKey = unresolvedContextKey) {id : MemoryId}
    {contextIds : List ContextId} {principal : String} {contextAudit : Option ContextAuditDraft}
    {revisionAt : Instant} {db next : Db} {value : Unit} (stated : db.ScopesStated)
    (cached : next.ScopesCached) (free : next.KeysUnreserved)
    (follows : (((db.metadata.find? id).map (·.metadata)).getD
      (blankMetadata id principal)).missesScope = true ↔ contextIds = [])
    (ran : replaceContextsOptimistically id contextIds principal contextAudit revisionAt db =
      .ok (value, next)) : next.ScopesStated := by
  obtain ⟨draft, _, ran⟩ := of_expect_bind ran
  obtain ⟨scope, _, ran⟩ := (readsOnly_optimisticCompatibilityScope contextIds).of_bind ran
  have ran := of_reads_bind ran
  obtain ⟨_, written, upsertRan, replaceRan⟩ := bind_eq_ok.mp ran
  have rescopes := rescopes_replaceMemoryContextsTx _ _ _ _ _ _ replaceRan
  have sameId : (((db.metadata.find? id).map (·.metadata)).getD
      (blankMetadata id principal)).memoryId = id := by
    cases found : db.metadata.find? id with
    | none => rfl
    | some row =>
        have own := Table.find?_key found
        exact own
  obtain ⟨row, ⟨named, _⟩, rows⟩ := find?_upsertMetadata upsertRan
  have found : written.metadata.find? id = some row := by
    rw [rows]
    exact if_pos sameId.symm
  have states : written.ScopesStated := by
    refine stated.upsert ⟨scope, rfl, ?_⟩ upsertRan
    rw [rescopes.scope_iff cached free normal found,
      membershipsOf_replaceMemoryContextsTx replaceRan, membershipRows_eq_nil_iff]
    exact follows
  refine states.renamed (fun other otherFound => ?_) rescopes
  rw [found] at otherFound
  cases otherFound
  exact named

/-- What a patch leaves as the flag of a memory. -/
theorem flaggedAfter_iff
    (normal : normalizeContextKey unresolvedContextKey = unresolvedContextKey) {id : MemoryId}
    {patch : Option MetadataPatch} {row : MemoryRow} {principal : String} {revisionAt : Instant}
    {start db next : Db} {value : Unit} (held : start.FlagsScopes)
    (found : start.memories.find? id = some row) (same : Keeps Db.metadata start db)
    (ran : onSome patch (fun changes => applyMetadataPatch id changes
      row.toMemory.provenance.sourceConversation principal revisionAt) db = .ok (value, next)) :
    next.ScopesStated ∧
      ((((next.metadata.find? id).map (·.metadata)).getD
        (blankMetadata id principal)).missesScope = true ↔ start.FlaggedAfter id patch) := by
  have stated := held.stated.of_metadata same
  cases patch with
  | none =>
      cases pure_eq_ok.mp ran
      refine ⟨stated, ?_⟩
      rw [show db.metadata = start.metadata from same, Db.FlaggedAfter, Table.contains]
      cases present : start.metadata.find? id with
      | none =>
          constructor
          · intro flagged
            cases flagged
          · rintro ⟨absurdity, _⟩
            cases absurdity
      | some existing =>
          refine (held.flag_iff normal present).trans ⟨fun none => ⟨rfl, none⟩, And.right⟩
  | some changes =>
      obtain ⟨states, names⟩ := stated_applyMetadataPatch held.scopes stated found same ran
      refine ⟨states, ?_⟩
      have ran := of_reads_bind ran
      obtain ⟨written, _, rows⟩ := find?_upsertMetadata ran
      have present : next.metadata.find? id = some written := by
        rw [rows]
        exact if_pos rfl
      obtain ⟨key, keyed, flagged⟩ := states.found present
      rw [names written present] at keyed
      cases keyed
      rw [present]
      exact flagged

theorem stated_updateAuthorizedIfUnmodified
    (normal : normalizeContextKey unresolvedContextKey = unresolvedContextKey) {dimensions : Nat}
    {activeProfile : Option EmbeddingProfile} {id : MemoryId} {expectedRevision : Int}
    {update : MemoryUpdate} {patch : Option MetadataPatch} {contextIds : Option (List ContextId)}
    {embedding : Option Embedding} {principal : String} {audit : AuditDraft}
    {contextAudit : Option ContextAuditDraft} {now : Instant} {db next : Db}
    {outcome : AuthorizedUpdateOutcome} (held : db.FlagsScopes) (cached : next.ScopesCached)
    (free : next.KeysUnreserved)
    (follows : ∀ ids, contextIds = some ids → (db.FlaggedAfter id patch ↔ ids = []))
    (ran : updateAuthorizedIfUnmodified dimensions activeProfile id expectedRevision update patch
      contextIds embedding principal audit contextAudit now db = .ok (outcome, next)) :
    next.ScopesStated := by
  have rules := rowRules_keepsMetadata
  obtain ⟨_, ran⟩ := of_require_bind ran
  have vectors : ReadsOnly (onSome embedding fun vector =>
      validateEmbeddingVector vector dimensions) :=
    Within.onSome fun _ _ => readsOnly_validateEmbeddingVector _ _
  obtain ⟨_, _, ran⟩ := vectors.of_bind ran
  obtain ⟨_, ran⟩ := of_require_bind ran
  have ran := of_reads_bind ran
  cases found : db.memories.find? id with
  | none =>
      rw [found] at ran
      cases pure_eq_ok.mp ran
      exact held.stated
  | some row =>
      rw [found] at ran
      dsimp only [Option.map_some] at ran
      split at ran
      · obtain ⟨_, ran⟩ := of_require_bind ran
        have checks : ReadsOnly (onSome (if contextIds.isNone then some () else none) fun _ =>
            validateCompatibilityCacheUpdate id update patch) :=
          Within.onSome fun _ _ => readsOnly_validateCompatibilityCacheUpdate _ _ _
        obtain ⟨_, _, ran⟩ := checks.of_bind ran
        obtain ⟨_, updated, updateRan, ran⟩ := bind_eq_ok.mp ran
        obtain ⟨_, embedded, embedRan, ran⟩ := bind_eq_ok.mp ran
        obtain ⟨_, patched, patchRan, ran⟩ := bind_eq_ok.mp ran
        obtain ⟨_, advanced, advanceRan, ran⟩ := bind_eq_ok.mp ran
        obtain ⟨_, replaced, replaceRan, ran⟩ := bind_eq_ok.mp ran
        obtain ⟨_, _, audited, done⟩ := bind_eq_ok.mp ran
        cases pure_eq_ok.mp done
        have same : Keeps Db.metadata db embedded :=
          IsTrans.trans db updated embedded (rules.applyUpdateInner _ _ _ updateRan)
            (Within.onSome (fun _ _ => rules.storeReplacementEmbedding _ _ _ _) embedRan)
        have advances : Keeps Db.metadata patched advanced :=
          Within.onSome (fun _ _ => rules.incrementRecordRevision _ _) advanceRan
        obtain ⟨states, flagged⟩ := flaggedAfter_iff normal held found same patchRan
        have advancedStates := states.of_metadata advances
        rw [← show advanced.metadata = patched.metadata from advances] at flagged
        cases writes_eq_ok.mp audited
        cases contextIds with
        | none =>
            cases pure_eq_ok.mp replaceRan
            exact advancedStates
        | some ids =>
            have replacedCached : replaced.ScopesCached :=
              ⟨⟨cached.anchored.memberships, cached.anchored.metadata⟩, cached.cached⟩
            have replacedFree : replaced.KeysUnreserved := ⟨free.normalized, free.unreserved⟩
            have replacedStates : replaced.ScopesStated :=
              stated_replaceContextsOptimistically normal advancedStates replacedCached
                replacedFree (flagged.trans (follows ids rfl)) replaceRan
            exact replacedStates
      · cases pure_eq_ok.mp ran
        exact held.stated

/-! ## Moving memories -/

theorem stated_replaceMemoryContexts
    (normal : normalizeContextKey unresolvedContextKey = unresolvedContextKey) {id : MemoryId}
    {contextIds : List ContextId} {principal : String} {audit : ContextAuditDraft}
    {now : Instant} {db next : Db} {outcome : WriteOutcome} (held : db.FlagsScopes)
    (cached : next.ScopesCached) (free : next.KeysUnreserved)
    (follows : db.metadata.contains id = true → (db.membershipsOf id = [] ↔ contextIds = []))
    (ran : replaceMemoryContexts id contextIds principal audit now db = .ok (outcome, next)) :
    next.ScopesStated := by
  have rules := rowRules_keepsMetadata
  obtain ⟨_, _, ran⟩ := (readsOnly_validateAuditActor audit principal).of_bind ran
  obtain ⟨_, ran⟩ := of_require_bind ran
  have ran := of_reads_bind ran
  cases stored : db.memories.find? id with
  | none =>
      rw [stored] at ran
      cases pure_eq_ok.mp ran
      exact held.stated
  | some memory =>
      rw [stored] at ran
      dsimp only [Option.map_some] at ran
      split at ran
      · have ran := of_reads_bind ran
        obtain ⟨_, _, ran⟩ := (readsOnly_requireUsableContexts _ _ _).of_bind ran
        obtain ⟨_, emptied, deleteRan, ran⟩ := bind_eq_ok.mp ran
        obtain ⟨_, joined, insertRan, ran⟩ := bind_eq_ok.mp ran
        obtain ⟨scope, _, ran⟩ := (readsOnly_primaryContextKey contextIds).of_bind ran
        obtain ⟨_, labelled, metadataRan, ran⟩ := bind_eq_ok.mp ran
        obtain ⟨_, written, memoryRan, ran⟩ := bind_eq_ok.mp ran
        obtain ⟨_, _, audited, done⟩ := bind_eq_ok.mp ran
        cases pure_eq_ok.mp done
        have before : Keeps Db.metadata db joined :=
          IsTrans.trans db emptied joined (rules.deleteMembershipRows id deleteRan)
            (rules.insertMembershipRows _ _ _ insertRan)
        have after : Keeps Db.metadata labelled next := by
          refine IsTrans.trans labelled written next ?_ (rules.insertContextAudit _ _ _ _ audited)
          refine rules.updateMemory (fun row => ?_) memoryRan
          exact .of_eq rfl rfl
        have rescopes := Rescopes.within before (rescopes_setMetadataScope _ _ _ metadataRan) after
        have members : next.membershipsOf id = [] ↔ contextIds = [] := by
          cases writes_eq_ok.mp audited
          have memoryRan := of_reads_bind memoryRan
          obtain ⟨_, _, rewritten, done⟩ := bind_eq_ok.mp memoryRan
          cases writes_eq_ok.mp rewritten
          cases pure_eq_ok.mp done
          cases writes_eq_ok.mp metadataRan
          obtain ⟨rows, _, _⟩ := insertMembershipRows_ok insertRan
          rw [membershipsOf_deleteMembershipRows deleteRan, List.nil_append] at rows
          rw [← @membershipRows_eq_nil_iff id contextIds now, ← rows]
          rfl
        refine held.stated.rescoped rescopes fun row found => ?_
        have present : db.metadata.contains id = true := by
          rw [Table.contains, found, Option.isSome_some]
        rw [rescopes.scope_iff cached free normal found, members, ← follows present]
        exact held.flag_iff normal found
      · cases pure_eq_ok.mp ran
        exact held.stated

theorem stated_applyReassignScope
    (normal : normalizeContextKey unresolvedContextKey = unresolvedContextKey) {newId : ContextId}
    {fromScope toScope : String} {origin : Option String} {principal : String}
    {audit : Option AuditDraft} {now : Instant} {db next : Db} {moved : List MemoryId}
    (held : db.FlagsScopes) (free : next.KeysUnreserved)
    (follows : ∀ id ∈ db.reassignableIds fromScope origin principal,
      db.metadata.contains id = true → db.membershipsOf id ≠ [])
    (ran : applyReassignScope newId fromScope toScope origin principal audit now db =
      .ok (moved, next)) : next.ScopesStated := by
  have ran := of_reads_bind ran
  split at ran
  · cases pure_eq_ok.mp ran
    exact held.stated
  · obtain ⟨target, targeted, targetRan, ran⟩ := bind_eq_ok.mp ran
    have ran := of_reads_bind ran
    obtain ⟨found, targetFound, ran⟩ := of_expect_bind ran
    obtain ⟨_, _, reassigned, done⟩ := bind_eq_ok.mp ran
    cases pure_eq_ok.mp done
    have same : Keeps Db.metadata db targeted :=
      rowRules_keepsMetadata.of_leavesMemories
        (leavesMemories_resolveOrCreatePrivateLegacyContext _ _ _ _) targetRan
    have contexts : Keeps Db.contextTables targeted next :=
      Within.forM (fun _ _ => (leavesLinks_reassignMemory _ _ _ _ _ _ _).leavesContexts)
        reassigned
    have targetMem : found ∈ next.contexts := by
      rw [show next.contexts = targeted.contexts from (Prod.mk.inj contexts).1]
      exact Table.mem_of_find? targetFound
    refine stated_reassignAll (free.key_ne targetMem) (held.stated.of_metadata same) ?_ reassigned
    intro id idMem row rowFound
    rw [show targeted.metadata = db.metadata from same] at rowFound
    have attached := follows id idMem (by rw [Table.contains, rowFound, Option.isSome_some])
    rw [Bool.eq_false_iff]
    intro flagged
    exact attached ((held.flag_iff normal rowFound).mp flagged)

/-! ## Metadata maintenance -/

theorem stated_upsertMetadataAudited
    (normal : normalizeContextKey unresolvedContextKey = unresolvedContextKey)
    {metadata : MemoryMetadata} {audit : Option AuditDraft} {now : Instant} {db next : Db}
    {value : Unit} (held : db.FlagsScopes)
    (follows : metadata.missesScope = true ↔ db.membershipsOf metadata.memoryId = [])
    (ran : upsertMetadataAudited metadata audit now db = .ok (value, next)) :
    next.ScopesStated := by
  have rules := rowRules_keepsMetadata
  have ran := of_reads_bind ran
  obtain ⟨existing, _, ran⟩ := of_expect_bind ran
  have ran := of_reads_bind ran
  obtain ⟨checked, ran⟩ := of_require_bind ran
  obtain ⟨_, written, upsertRan, ran⟩ := bind_eq_ok.mp ran
  have later : Keeps Db.metadata written next :=
    Within.bind (rules.incrementRecordRevision _ _)
      (fun _ => Within.onSome fun _ _ => rules.insertAuditDraft _ _) ran
  rw [Bool.and_eq_true, beq_iff_eq] at checked
  have states : metadata.StatesScope :=
    ⟨_, checked.1, follows.trans (held.keys.key_iff held.scopes normal metadata.memoryId).symm⟩
  exact (held.stated.upsert states upsertRan).of_metadata later

/-- A prepared row states the scope of its memory. -/
def PreparedMigrationMetadata.StatesScope (row : PreparedMigrationMetadata) : Prop :=
  row.unresolvedScope = true ↔ normalizeContextKey row.scopeKey = unresolvedContextKey

theorem Db.FlagsScopes.prepared {db : Db} (held : db.FlagsScopes)
    (normal : normalizeContextKey unresolvedContextKey = unresolvedContextKey) :
    ∀ row ∈ db.metadataMigrationRows, row.StatesScope := by
  intro row rowMem
  obtain ⟨stored, _, rfl⟩ := List.mem_map.mp rowMem
  refine beq_iff_eq.trans ?_
  exact (held.keys.key_eq_iff held.scopes normal stored.id).trans
    (held.keys.key_iff held.scopes normal stored.id).symm

theorem states_insertMigratedMetadata {row : PreparedMigrationMetadata} (states : row.StatesScope)
    (audit : Option AuditDraft) (now : Instant) :
    Within StatesScopes (insertMigratedMetadata row audit now) := by
  have rules := rowRules_keepsMetadata
  refine Within.bind Within.reads fun present => ?_
  split
  · exact Within.pure
  · refine Within.bind Within.reads fun _ => ?_
    refine Within.bind Within.require fun _ => ?_
    refine Within.bind (Within.writes fun db stated other otherMem => ?_) fun _ => ?_
    · rcases Table.mem_insertOrIgnore_iff.mp otherMem with older | ⟨_, rfl⟩
      · exact stated other older
      · refine ⟨row.scopeKey, rfl, ?_⟩
        rw [MemoryMetadata.missesScope, contains_migrationQualityFlags]
        exact states
    · refine Within.bind (states_of_keepsMetadata (rules.incrementRecordRevision _ _))
        fun _ => ?_
      refine Within.bind (states_of_keepsMetadata (Within.onSome fun _ _ => ?_)) fun _ => ?_
      · exact rules.insertAuditDraft _ _
      · exact Within.pure

theorem stated_migrateMetadata
    (normal : normalizeContextKey unresolvedContextKey = unresolvedContextKey) {dryRun : Bool}
    {audit : Option AuditDraft} {now : Instant} {db next : Db}
    {outcome : MetadataMigrationOutcome} (held : db.FlagsScopes)
    (ran : migrateMetadata dryRun audit now db = .ok (outcome, next)) : next.ScopesStated := by
  have ran := of_reads_bind ran
  have ran := of_reads_bind ran
  split at ran
  · cases pure_eq_ok.mp ran
    exact held.stated
  · obtain ⟨_, _, rowsRan, done⟩ := bind_eq_ok.mp ran
    cases pure_eq_ok.mp done
    have inserts : Within StatesScopes
        (db.metadataMigrationRows.mapM fun row => insertMigratedMetadata row audit now) :=
      Within.mapM fun row rowMem =>
        states_insertMigratedMetadata (held.prepared normal row rowMem) audit now
    exact inserts rowsRan held.stated

/-! ## Runs -/

/-- A command that leaves the flags following the memberships: new metadata is
flagged as its contexts say, and memberships are replaced without a patch only
where the flag stays right. -/
def StoreCommand.FollowsScopes (db : Db) : StoreCommand → Prop
  | .storeWithMetadataContexts request => request.FlagsContexts
  | .storeBatchWithMetadataContexts items supersedes metadata contextIds audits contextAudits =>
      ∀ request ∈ governedItems items supersedes metadata contextIds audits contextAudits,
        request.FlagsContexts
  | .upsertMetadata metadata _ =>
      metadata.missesScope = true ↔ db.membershipsOf metadata.memoryId = []
  | .updateIfUnmodified id _ _ patch contextIds _ _ _ _ =>
      ∀ ids, contextIds = some ids → (db.FlaggedAfter id patch ↔ ids = [])
  | .replaceMemoryContexts id contextIds _ _ =>
      db.metadata.contains id = true → (db.membershipsOf id = [] ↔ contextIds = [])
  | .reassignScope _ fromScope _ origin principal _ =>
      ∀ id ∈ db.reassignableIds fromScope origin principal,
        db.metadata.contains id = true → db.membershipsOf id ≠ []
  | .createContext draft _ => normalizeContextKey draft.key ≠ unresolvedContextKey
  | _ => True

theorem StoreCommand.FollowsScopes.unreserved {db : Db} {command : StoreCommand}
    (follows : command.FollowsScopes db) : command.Unreserved := by
  cases command with
  | createContext draft audit => exact follows
  | _ => trivial

theorem states_discard {α : Type} {body : StoreM α} (inner : Within StatesScopes body) :
    Within StatesScopes (StoreCommand.discard body) :=
  within_discard inner

theorem states_of_leavesMemories {α : Type} {body : StoreM α} (inner : LeavesMemories body) :
    Within StatesScopes body :=
  states_of_keepsMetadata (rowRules_keepsMetadata.of_leavesMemories inner)

/-- The commands whose effect on flags depends on what is stored. -/
def StoreCommand.writesScopes : StoreCommand → Bool
  | .storeWithMetadataContexts _ => true
  | .storeBatchWithMetadataContexts _ _ _ _ _ _ => true
  | .updateAuthorizedWithMetadata _ _ _ _ _ => true
  | .updateAuthorizedWithMetadataContexts _ _ _ _ _ _ _ => true
  | .updateIfUnmodified _ _ _ _ _ _ _ _ _ => true
  | .upsertMetadata _ _ => true
  | .migrateMetadata _ _ => true
  | .reassignScope _ _ _ _ _ _ => true
  | .replaceMemoryContexts _ _ _ _ => true
  | _ => false

/-- The other commands leave metadata or delete it. -/
theorem states_body {command : StoreCommand} (governed : command.governed = true)
    (other : command.writesScopes = false) (handle : StoreHandle) (now : Instant) :
    Within StatesScopes (command.body handle now) := by
  have rules := rowRules_keepsMetadata
  cases command with
  | store item audit => cases governed
  | storeWithSupersession item supersedes audit => cases governed
  | storeWithMetadata item supersedes metadata audit => cases governed
  | storeBatch items audits => cases governed
  | storeBatchWithSupersession items supersedes audits => cases governed
  | storeBatchWithMetadata items supersedes metadata audits => cases governed
  | storeWithMetadataContexts request => cases other
  | storeBatchWithMetadataContexts items supersedes metadata contextIds audits contextAudits =>
      cases other
  | updateAuthorizedWithMetadata id changes patch principal audit => cases other
  | updateAuthorizedWithMetadataContexts id changes patch contextIds principal audit
      contextAudit => cases other
  | updateIfUnmodified id expectedRevision changes patch contextIds embedding principal audit
      contextAudit => cases other
  | upsertMetadata metadata audit => cases other
  | migrateMetadata dryRun audit => cases other
  | reassignScope newId fromScope toScope origin principal audit => cases other
  | replaceMemoryContexts id contextIds principal audit => cases other
  | update id changes =>
      exact states_discard (states_of_keepsMetadata (rules.applyUpdate _ _ _))
  | updateAuthorized id changes principal audit =>
      exact states_discard (states_of_keepsMetadata (rules.updateAuthorized _ _ _ _ _))
  | bulkUpdate ids changes principal audit =>
      exact states_discard (states_of_keepsMetadata (rules.bulkUpdateIds _ _ _ _ _))
  | delete id => exact states_discard (within_applyDelete states_entombMemory _ _)
  | deleteAuthorized id principal audit =>
      exact states_discard
        (within_deleteAuthorized states_entombMemory states_insertAuditDraft _ _ _ _)
  | deleteIfUnmodified id expectedRevision principal audit =>
      exact states_discard
        (within_deleteAuthorizedIfUnmodified states_entombMemory states_insertAuditDraft _ _ _ _ _)
  | bulkDelete ids principal audit =>
      exact states_discard
        (within_bulkDeleteIds states_entombMemory states_insertAuditDraft _ _ _ _)
  | evictExpired scope audit =>
      exact states_discard
        (within_evictExpired states_entombMemory states_insertAuditDraft _ _ _)
  | markSupersededBy id supersededBy =>
      exact states_discard (states_of_keepsMetadata (rules.markSuperseded _ _))
  | markSupersededByAuthorized id supersededBy principal audit =>
      exact states_discard (states_of_keepsMetadata (rules.markSupersededByAuthorized _ _ _ _))
  | markSupersededIfUnchanged member representative principal audit =>
      exact states_discard (states_of_keepsMetadata (rules.markSupersededIfUnchanged _ _ _ _))
  | recordSearchImpression ids =>
      exact states_of_keepsMetadata (rules.recordSearchImpression _ _)
  | recordMemoryUse decayMass ids principal eventWeight =>
      exact states_discard (states_of_keepsMetadata (rules.recordMemoryUse _ _ _ _ _))
  | writeAuditEntry id audit => exact states_insertAuditDraft _ _
  | claimForReembed principal limit token =>
      refine states_discard (states_of_keepsMetadata ?_)
      exact Within.bind Within.reads fun _ =>
        Within.bind (Within.writes fun _ => rfl) fun _ => Within.pure
  | releaseEmbeddingClaim id expectedRevision token =>
      refine states_discard (states_of_keepsMetadata ?_)
      exact Within.bind Within.reads fun _ =>
        Within.bind (Within.writes fun _ => rfl) fun _ => Within.pure
  | setEmbedding id embedding expectedRevision =>
      exact states_of_keepsMetadata (rules.setEmbedding _ _ _ _ _)
  | verifyEmbeddingProfile profile =>
      refine states_of_keepsMetadata (Within.bind Within.reads fun recorded => ?_)
      cases recorded with
      | some existing => exact Within.require
      | none =>
          refine Within.bind Within.reads fun _ => Within.bind Within.require fun _ => ?_
          exact Within.bind Within.require fun _ => Within.writes fun _ => rfl
  | reindexEmbeddings profile =>
      refine states_of_keepsMetadata (Within.bind (Within.writes fun _ => rfl) fun _ => ?_)
      exact Within.bind Within.require fun _ => Within.writes fun _ => rfl
  | registerScope newId scope principal =>
      exact states_of_leavesMemories (leavesMemories_registerLegacyScopeContext _ _ _ _)
  | createContext draft audit =>
      exact states_discard (states_of_leavesMemories (leavesMemories_createContext _ _ _))
  | setContextParent id parentId principal audit =>
      exact states_of_leavesMemories (leavesMemories_setContextParent _ _ _ _ _)
  | setContextLifecycle id lifecycle principal audit =>
      exact states_of_leavesMemories (leavesMemories_setContextLifecycle _ _ _ _ _)
  | grantContextUse id grantee principal audit =>
      exact states_of_leavesMemories (leavesMemories_grantContextUse _ _ _ _ _)
  | revokeContextUse id grantee principal audit =>
      exact states_of_leavesMemories (leavesMemories_revokeContextUse _ _ _ _ _)
  | replaceContextGrants id grantees principal audit =>
      exact states_of_leavesMemories (leavesMemories_replaceContextGrants _ _ _ _ _)
  | updateContextDefinition id patch principal audit =>
      exact states_of_leavesMemories (leavesMemories_updateContextDefinition _ _ _ _ _)
  | upsertContextKind kind displayName enabled principal audit =>
      exact states_of_leavesMemories (leavesMemories_upsertContextKind _ _ _ _ _ _)
  | upsertContextKindPolicy layer policyPrincipal kind policy principal audit =>
      exact states_of_leavesMemories (leavesMemories_upsertContextKindPolicy _ _ _ _ _ _ _)
  | upsertContextAnchorPolicy anchorId policyPrincipal policy principal audit =>
      exact states_of_leavesMemories (leavesMemories_upsertContextAnchorPolicy _ _ _ _ _ _)
  | rollbackUnreferencedLegacyContext id principal =>
      exact states_discard
        (states_of_leavesMemories (leavesMemories_rollbackUnreferencedLegacyContext _ _))

/-- A step that follows scopes keeps the flags right. -/
theorem Db.FlagsScopes.step
    (normal : normalizeContextKey unresolvedContextKey = unresolvedContextKey) {db next : Db}
    {call : StoreCall} (held : db.FlagsScopes) (governed : call.command.governed = true)
    (follows : call.command.FollowsScopes db) (stepEq : storeStep db call = some next) :
    next.FlagsScopes := by
  have cached : next.ScopesCached :=
    storeStep_within (safe_body governed call.handle call.now) stepEq held.scopes
  have free := held.keys.step follows.unreserved.draftsMeet stepEq
  cases writes : call.command.writesScopes with
  | false =>
      exact ⟨cached, free,
        storeStep_within (states_body governed writes call.handle call.now) stepEq held.stated⟩
  | true =>
      obtain ⟨handle, now, command⟩ := call
      cases command with
      | storeWithMetadataContexts request =>
          rcases storeStep_cases rfl stepEq with rfl | ⟨value, ran⟩
          · exact held
          · exact flags_storeWithMetadataContexts normal _ _ follows ran held
      | storeBatchWithMetadataContexts items supersedes metadata contextIds audits contextAudits =>
          rcases storeStep_cases rfl stepEq with rfl | ⟨value, ran⟩
          · exact held
          · exact flags_storeBatchWithMetadataContexts normal _ _ follows ran held
      | updateAuthorizedWithMetadata id changes patch principal audit =>
          rcases storeStep_cases rfl stepEq with rfl | ⟨value, ran⟩
          · exact held
          · exact ⟨cached, free,
              stated_updateAuthorizedWithMetadata held.scopes held.stated ran⟩
      | updateAuthorizedWithMetadataContexts id changes patch contextIds principal audit
          contextAudit =>
          rcases storeStep_cases rfl stepEq with rfl | ⟨value, ran⟩
          · exact held
          · exact ⟨cached, free,
              stated_updateAuthorizedWithMetadataContexts held.scopes held.stated ran⟩
      | updateIfUnmodified id expectedRevision changes patch contextIds embedding principal audit
          contextAudit =>
          rcases storeStep_cases rfl stepEq with rfl | ⟨value, ran⟩
          · exact held
          · exact ⟨cached, free,
              stated_updateAuthorizedIfUnmodified normal held cached free follows ran⟩
      | upsertMetadata metadata audit =>
          rcases (storeStep_ran stepEq).2 with rfl | ran
          · exact held
          · exact ⟨cached, free, stated_upsertMetadataAudited normal held follows ran⟩
      | migrateMetadata dryRun audit =>
          rcases storeStep_cases rfl stepEq with rfl | ⟨value, ran⟩
          · exact held
          · exact ⟨cached, free, stated_migrateMetadata normal held ran⟩
      | reassignScope newId fromScope toScope origin principal audit =>
          rcases storeStep_cases rfl stepEq with rfl | ⟨value, ran⟩
          · exact held
          · exact ⟨cached, free, stated_applyReassignScope normal held free follows ran⟩
      | replaceMemoryContexts id contextIds principal audit =>
          rcases storeStep_cases rfl stepEq with rfl | ⟨value, ran⟩
          · exact held
          · exact ⟨cached, free, stated_replaceMemoryContexts normal held cached free follows ran⟩
      | _ => cases writes

theorem Db.Vacant.flagsScopes {db : Db} (vacant : db.Vacant)
    (fresh : db.contexts = Table.empty) : db.FlagsScopes := by
  refine ⟨vacant.scopesCached, .of_empty fresh, fun row rowMem => ?_⟩
  rw [vacant.metadata] at rowMem
  exact absurd rowMem List.not_mem_nil

/-- In every run of governed commands that follow scopes, a memory with metadata
is flagged for a missing scope exactly when it is in no context, and that is
when its scope is the reserved key. -/
theorem missing_scope_follows {start final : Db} {calls : List StoreCall}
    (lowercase : Host.toLowercase unresolvedContextKey = unresolvedContextKey)
    (vacant : start.Vacant) (fresh : start.contexts = Table.empty)
    (follows : Guarded storeStep (fun db call => call.command.governed = true ∧
      call.command.FollowsScopes db) start calls)
    (runEq : run storeStep start calls = some final) :
    ∀ row ∈ final.metadata,
      (row.metadata.missesScope = true ↔
        ∀ membership ∈ final.memoryContexts, membership.memoryId ≠ row.metadata.memoryId) ∧
      (row.metadata.missesScope = true ↔
        final.compatibilityScopeKey row.metadata.memoryId = unresolvedContextKey) := by
  have normal := normalizeContextKey_unresolved lowercase
  have held : final.FlagsScopes := by
    refine run_invariant_of_guarded (fun db call next held allowed stepEq => ?_)
      follows (vacant.flagsScopes fresh) runEq
    exact held.step normal allowed.1 allowed.2 stepEq
  intro row rowMem
  have found : final.metadata.find? row.metadata.memoryId = some row :=
    Table.find?_eq_some_iff.mpr ⟨rowMem, rfl⟩
  have flagged := held.flag_iff normal found
  refine ⟨flagged.trans ?_,
    flagged.trans (held.keys.key_eq_iff held.scopes normal row.metadata.memoryId).symm⟩
  rw [Db.membershipsOf, List.eq_nil_iff_forall_not_mem]
  constructor
  · intro none membership stored own
    exact none membership (Table.mem_select_iff.mpr ⟨stored, decide_eq_true own⟩)
  · intro none membership membershipMem
    obtain ⟨stored, own⟩ := Table.mem_select_iff.mp membershipMem
    exact none membership stored (decide_eq_true_eq.mp own)

omit [Host] in
/-- A project is created, and a note is stored in no context. -/
def storedOutside : List StoreCall :=
  let memory := { Memory.plain ⟨7⟩ "owner" "a note" 0 with
    provenance := { Provenance.default with
      sourceAgent := some "owner"
      sourceConversation := some unresolvedContextKey } }
  let audit : ContextAuditDraft := ⟨"owner", "memory_context", none, none, none⟩
  let metadata : MemoryMetadata :=
    ⟨⟨7⟩, some unresolvedContextKey, none, none, none, ["missing_scope"], 1⟩
  let request : GovernedItem :=
    ⟨⟨memory, none⟩, none, metadata, [], ⟨.store, some "owner", 0, none⟩, audit⟩
  [.createContext (projectDraft ⟨1⟩ "atlas") audit,
    .storeWithMetadataContexts request].map fun command => ⟨⟨3, none⟩, 0, command⟩

omit [Host] in
/-- The note is moved into the project. -/
def movedInside : List StoreCall :=
  storedOutside ++ [⟨⟨3, none⟩, 1, .replaceMemoryContexts ⟨7⟩ [⟨1⟩] "owner"
    ⟨"owner", "memory_context", none, none, none⟩⟩]

omit [Host] in
theorem missing_scope_follows_outside :
    ∃ final, @run _ _ (@storeStep asciiHost) projectKindStore storedOutside = some final ∧
      ∃ row ∈ final.metadata, row.metadata.missesScope = true ∧
        ∀ membership ∈ final.memoryContexts, membership.memoryId ≠ row.metadata.memoryId := by
  have ran : ∃ final, @run _ _ (@storeStep asciiHost) projectKindStore storedOutside = some final ∧
      ∃ row, final.metadata.find? ⟨7⟩ = some row ∧ row.metadata.missesScope = true :=
    ⟨_, rfl, _, rfl, rfl⟩
  obtain ⟨final, runEq, row, found, flagged⟩ := ran
  have rowMem := Table.mem_of_find? found
  have follows : @Guarded _ _ (@storeStep asciiHost) (fun db call =>
      call.command.governed = true ∧ @StoreCommand.FollowsScopes asciiHost db call.command)
      projectKindStore storedOutside := by
    refine ⟨⟨rfl, ?_⟩, fun _ _ => ⟨⟨rfl, rfl, ?_⟩, fun _ _ => trivial⟩⟩
    · show @normalizeContextKey asciiHost "atlas" ≠ unresolvedContextKey
      decide
    · exact ⟨fun _ => rfl, fun _ => rfl⟩
  have reads := (@missing_scope_follows asciiHost _ _ _ (by decide) ⟨rfl, rfl, rfl⟩ rfl follows
    runEq row rowMem).1
  exact ⟨final, runEq, row, rowMem, flagged, reads.mp flagged⟩

omit [Host] in
/-- A memory that is moved into its first context stays flagged. -/
theorem missing_scope_stays :
    ∃ final, @run _ _ (@storeStep asciiHost) projectKindStore movedInside = some final ∧
      (∀ call ∈ movedInside, call.command.governed = true) ∧
      ∃ row ∈ final.metadata, row.metadata.missesScope = true ∧
        ∃ membership ∈ final.memoryContexts, membership.memoryId = row.metadata.memoryId := by
  have ran : ∃ final, @run _ _ (@storeStep asciiHost) projectKindStore movedInside = some final ∧
      (∃ row, final.metadata.find? ⟨7⟩ = some row ∧ row.metadata.missesScope = true) ∧
      ∃ membership, final.memoryContexts.find? (⟨7⟩, ⟨1⟩) = some membership :=
    ⟨_, rfl, ⟨_, rfl, rfl⟩, _, rfl⟩
  obtain ⟨final, runEq, ⟨row, rowFound, flagged⟩, membership, membershipFound⟩ := ran
  obtain ⟨rowMem, rowNamed⟩ := Table.find?_eq_some_iff.mp rowFound
  obtain ⟨membershipMem, membershipNamed⟩ := Table.find?_eq_some_iff.mp membershipFound
  refine ⟨final, runEq, by decide, row, rowMem, flagged, membership, membershipMem, ?_⟩
  rw [rowNamed, (Prod.mk.inj membershipNamed).1]

end LocalHold
