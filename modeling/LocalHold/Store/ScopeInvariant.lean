import LocalHold.Store.Acyclic
import LocalHold.Store.ScopeAdmin

/-!
# The compatibility scope of every reachable state

The governed commands are all commands except the stores that take no contexts.
Whatever governed commands run from a store without memories, the provenance of
a memory and its metadata hold the key of its first context, or the reserved key
when it has none.
-/

namespace LocalHold

open Relational Transition Transition.Txn

/-! ## Commands that leave scopes -/

theorem keepsScopes_supersedeMarked {marked : Bool} {audit : Option AuditDraft} {id : MemoryId}
    {α : Type} {value : α} :
    KeepsScopes (do
      onSome (if marked then audit else none) (insertAuditDraft id)
      return value) :=
  Within.bind (Within.onSome fun _ _ => keepsScopes_insertAuditDraft _ _) fun _ => Within.pure

theorem keepsScopes_markSupersededByAuthorized (id supersededBy : MemoryId) (principal : String)
    (audit : Option AuditDraft) :
    KeepsScopes (markSupersededByAuthorized id supersededBy principal audit) := by
  refine Within.bind Within.reads fun found => ?_
  cases found with
  | none => exact Within.pure
  | some existing =>
      dsimp only
      split
      · exact Within.bind (keepsScopes_markSuperseded _ _) fun _ => keepsScopes_supersedeMarked
      · exact Within.pure

theorem keepsScopes_markSupersededIfUnchanged (member representative : ConsolidationSnapshot)
    (principal : String) (audit : AuditDraft) :
    KeepsScopes (markSupersededIfUnchanged member representative principal audit) := by
  refine Within.bind Within.require fun _ => ?_
  refine Within.bind Within.require fun _ => ?_
  refine Within.bind Within.reads fun found => ?_
  cases found with
  | none => exact Within.pure
  | some existingMember =>
      refine Within.bind Within.reads fun found => ?_
      cases found with
      | none => exact Within.pure
      | some existingRepresentative =>
          dsimp only
          split
          · refine Within.bind Within.reads fun _ => ?_
            refine Within.bind Within.reads fun _ => ?_
            refine Within.bind Within.require fun _ => ?_
            exact Within.bind (keepsScopes_markSuperseded _ _) fun _ => keepsScopes_supersedeMarked
          · exact Within.pure

theorem keepsScopes_recordSearchImpression (ids : List MemoryId) (now : Instant) :
    KeepsScopes (recordSearchImpression ids now) :=
  Within.forM fun _ _ =>
    Within.bind (keepsScopes_updateMemory fun _ => rfl) fun _ => Within.pure

theorem keepsScopes_recordMemoryUse (decayMass : ℚ → Option Instant → Instant → ℚ)
    (ids : List MemoryId) (principal : String) (eventWeight : ℚ) (now : Instant) :
    KeepsScopes (recordMemoryUse decayMass ids principal eventWeight now) := by
  refine Within.foldlM fun outcome id _ => ?_
  refine Within.bind Within.reads fun found => ?_
  cases found with
  | none => exact Within.pure
  | some memory =>
      dsimp only
      split
      · exact Within.pure
      · exact Within.bind (keepsScopes_updateMemory fun _ => rfl) fun _ => Within.pure

theorem keepsScopes_setEmbedding (dimensions : Nat) (activeProfile : Option EmbeddingProfile)
    (id : MemoryId) (embedding : Embedding) (expectedRevision : Int) :
    KeepsScopes (setEmbedding dimensions activeProfile id embedding expectedRevision) := by
  refine Within.bind (readsOnly_validateEmbeddingVector _ _).within fun _ => ?_
  refine Within.bind (Within.onSome fun _ _ =>
    (readsOnly_ensureEmbeddingProfileMatches _).within) fun _ => ?_
  refine Within.bind Within.reads fun _ => ?_
  refine Within.bind Within.expect fun _ => ?_
  refine Within.bind Within.require fun _ => ?_
  refine Within.bind (keepsScopes_vectorUpsert _ _ _) fun _ => ?_
  exact Within.bind (keepsScopes_updateMemoryWhere fun _ => rfl) fun _ => Within.require

theorem keepsScopes_insertEmbeddingProfile (profile : EmbeddingProfile) :
    KeepsScopes (insertEmbeddingProfile profile) :=
  Within.bind Within.require fun _ => keepsScopes_of_tables (Within.writes fun _ => rfl)

theorem keepsScopes_verifyEmbeddingProfile (profile : EmbeddingProfile) :
    KeepsScopes (verifyEmbeddingProfile profile) := by
  refine Within.bind Within.reads fun recorded => ?_
  cases recorded with
  | some existing => exact Within.require
  | none =>
      refine Within.bind Within.reads fun _ => ?_
      exact Within.bind Within.require fun _ => keepsScopes_insertEmbeddingProfile _

theorem keepsScopes_reindexEmbeddings (profile : EmbeddingProfile) :
    KeepsScopes (reindexEmbeddings profile) := by
  refine Within.bind (Within.writes fun db => ?_) fun _ => keepsScopes_insertEmbeddingProfile _
  exact IsTrans.trans db _ _
    (@ScopeTouches.of_updateWhere db _ (fun _ => true) MemoryRow.withoutEmbedding (fun _ => rfl)
      fun _ _ _ => rfl)
    (ScopeTouches.of_tables rfl)

variable [Host]

theorem keepsScopes_claimForReembed (principal : Option String) (limit : Nat) (token : String)
    (now : Instant) : KeepsScopes (claimForReembed principal limit token now) := by
  refine Within.bind Within.reads fun _ => ?_
  refine Within.bind (Within.writes fun db => ?_) fun _ => Within.pure
  exact ScopeTouches.of_updateWhere fun _ _ _ => rfl

/-! ## Runs of governed commands -/

omit [Host] in
/-- The commands that state the contexts of the memories they store. -/
def StoreCommand.governed : StoreCommand → Bool
  | .store _ _ => false
  | .storeWithSupersession _ _ _ => false
  | .storeWithMetadata _ _ _ _ => false
  | .storeBatch _ _ => false
  | .storeBatchWithSupersession _ _ _ => false
  | .storeBatchWithMetadata _ _ _ _ => false
  | _ => true

omit [Host] in
theorem safe_discard {α : Type} {body : StoreM α} (inner : Within ScopeSafe body) :
    Within ScopeSafe (StoreCommand.discard body) :=
  within_discard inner

omit [Host] in
/-- A command on contexts that deletes none is safe. -/
theorem safe_of_keysGrow {α : Type} {body : StoreM α} (leaves : LeavesMemories body)
    (grows : Within KeysGrow body) : Within ScopeSafe body :=
  (keepsScopes_of_keysGrow leaves grows).safe

/-- Every governed command keeps the copies right. -/
theorem safe_body {command : StoreCommand} (governed : command.governed = true)
    (handle : StoreHandle) (now : Instant) : Within ScopeSafe (command.body handle now) := by
  have restoredSafe : ∀ id db next, ScopeRestored id db next → ScopeSafe db next :=
    fun _ _ _ restored => restored.safe
  cases command with
  | store item audit => cases governed
  | storeWithSupersession item supersedes audit => cases governed
  | storeWithMetadata item supersedes metadata audit => cases governed
  | storeBatch items audits => cases governed
  | storeBatchWithSupersession items supersedes audits => cases governed
  | storeBatchWithMetadata items supersedes metadata audits => cases governed
  | storeWithMetadataContexts request =>
      exact safe_discard (within_storeWithMetadataContexts restoredSafe _ _ _)
  | storeBatchWithMetadataContexts items supersedes metadata contextIds audits contextAudits =>
      exact safe_discard
        (within_storeBatchWithMetadataContexts restoredSafe _ _ _ _ _ _ _ _)
  | update id changes => exact safe_discard (safe_applyUpdate _ _ _)
  | updateAuthorized id changes principal audit =>
      exact safe_discard (safe_updateAuthorized _ _ _ _ _)
  | updateAuthorizedWithMetadata id changes patch principal audit =>
      exact safe_discard (safe_updateAuthorizedWithMetadata _ _ _ _ _ _)
  | updateAuthorizedWithMetadataContexts id changes patch contextIds principal audit
      contextAudit =>
      exact safe_discard (safe_updateAuthorizedWithMetadataContexts _ _ _ _ _ _ _ _)
  | updateIfUnmodified id expectedRevision changes patch contextIds embedding principal audit
      contextAudit =>
      exact safe_discard (safe_updateAuthorizedIfUnmodified _ _ _ _ _ _ _ _ _ _ _ _)
  | bulkUpdate ids changes principal audit => exact safe_discard (safe_bulkUpdateIds _ _ _ _ _)
  | delete id => exact safe_discard (within_applyDelete safe_entombMemory _ _)
  | deleteAuthorized id principal audit => exact safe_discard (within_deleteAuthorized safe_entombMemory safe_insertAuditDraft _ _ _ _)
  | deleteIfUnmodified id expectedRevision principal audit =>
      exact safe_discard (within_deleteAuthorizedIfUnmodified safe_entombMemory safe_insertAuditDraft _ _ _ _ _)
  | bulkDelete ids principal audit => exact safe_discard (within_bulkDeleteIds safe_entombMemory safe_insertAuditDraft _ _ _ _)
  | evictExpired scope audit => exact safe_discard (within_evictExpired safe_entombMemory safe_insertAuditDraft _ _ _)
  | markSupersededBy id supersededBy =>
      exact safe_discard (keepsScopes_markSuperseded _ _).safe
  | markSupersededByAuthorized id supersededBy principal audit =>
      exact safe_discard (keepsScopes_markSupersededByAuthorized _ _ _ _).safe
  | markSupersededIfUnchanged member representative principal audit =>
      exact safe_discard (keepsScopes_markSupersededIfUnchanged _ _ _ _).safe
  | recordSearchImpression ids => exact (keepsScopes_recordSearchImpression _ _).safe
  | recordMemoryUse decayMass ids principal eventWeight =>
      exact safe_discard (keepsScopes_recordMemoryUse _ _ _ _ _).safe
  | writeAuditEntry id audit => exact (keepsScopes_insertAuditDraft _ _).safe
  | claimForReembed principal limit token =>
      exact safe_discard (keepsScopes_claimForReembed _ _ _ _).safe
  | releaseEmbeddingClaim id expectedRevision token =>
      exact safe_discard (KeepsScopes.safe (keepsScopes_updateMemoryWhere fun _ => rfl))
  | setEmbedding id embedding expectedRevision =>
      exact (keepsScopes_setEmbedding _ _ _ _ _).safe
  | verifyEmbeddingProfile profile => exact (keepsScopes_verifyEmbeddingProfile _).safe
  | reindexEmbeddings profile => exact (keepsScopes_reindexEmbeddings _).safe
  | upsertMetadata metadata audit => exact safe_upsertMetadataAudited _ _ _
  | migrateMetadata dryRun audit => exact safe_discard (safe_migrateMetadata _ _ _)
  | registerScope newId scope principal =>
      exact safe_of_keysGrow (leavesMemories_registerLegacyScopeContext _ _ _ _)
        (keysGrow_registerLegacyScopeContext _ _ _ _)
  | reassignScope newId fromScope toScope origin principal audit =>
      exact safe_discard
        (within_applyReassignScope (fun _ _ kept => kept.safe_of_kept) restoredSafe _ _ _ _ _ _ _)
  | replaceMemoryContexts id contextIds principal audit =>
      exact safe_discard (within_replaceMemoryContexts restoredSafe _ _ _ _ _)
  | createContext draft audit =>
      exact safe_discard (safe_of_keysGrow (leavesMemories_createContext _ _ _)
        (keysGrow_createContext _ _ _))
  | setContextParent id parentId principal audit =>
      exact safe_of_keysGrow (leavesMemories_setContextParent _ _ _ _ _)
        (keysGrow_setContextParent _ _ _ _ _)
  | setContextLifecycle id lifecycle principal audit =>
      exact safe_of_keysGrow (leavesMemories_setContextLifecycle _ _ _ _ _)
        (keysGrow_setContextLifecycle _ _ _ _ _)
  | grantContextUse id grantee principal audit =>
      exact safe_of_keysGrow (leavesMemories_grantContextUse _ _ _ _ _)
        (leavesContexts_grantContextUse _ _ _ _ _).keysGrow
  | revokeContextUse id grantee principal audit =>
      exact safe_of_keysGrow (leavesMemories_revokeContextUse _ _ _ _ _)
        (leavesContexts_revokeContextUse _ _ _ _ _).keysGrow
  | replaceContextGrants id grantees principal audit =>
      exact safe_of_keysGrow (leavesMemories_replaceContextGrants _ _ _ _ _)
        (leavesContexts_replaceContextGrants _ _ _ _ _).keysGrow
  | updateContextDefinition id patch principal audit =>
      exact safe_of_keysGrow (leavesMemories_updateContextDefinition _ _ _ _ _)
        (keysGrow_updateContextDefinition _ _ _ _ _)
  | upsertContextKind kind displayName enabled principal audit =>
      exact safe_of_keysGrow (leavesMemories_upsertContextKind _ _ _ _ _ _)
        (keysGrow_upsertContextKind _ _ _ _ _ _)
  | upsertContextKindPolicy layer policyPrincipal kind policy principal audit =>
      exact safe_of_keysGrow (leavesMemories_upsertContextKindPolicy _ _ _ _ _ _ _)
        (leavesContexts_upsertContextKindPolicy _ _ _ _ _ _ _).keysGrow
  | upsertContextAnchorPolicy anchorId policyPrincipal policy principal audit =>
      exact safe_of_keysGrow (leavesMemories_upsertContextAnchorPolicy _ _ _ _ _ _)
        (leavesContexts_upsertContextAnchorPolicy _ _ _ _ _ _).keysGrow
  | rollbackUnreferencedLegacyContext id principal =>
      exact safe_discard (keepsScopes_rollbackUnreferencedLegacyContext _ _).safe

omit [Host] in
/-- A store that holds no memory. -/
structure Db.Vacant (db : Db) : Prop where
  memories : db.memories = Table.empty
  metadata : db.metadata = Table.empty
  memberships : db.memoryContexts = Table.empty

omit [Host] in
theorem Db.Vacant.scopesCached {db : Db} (vacant : db.Vacant) : db.ScopesCached := by
  have noRows : ∀ id, db.membershipsOf id = [] := by
    intro id
    rw [Db.membershipsOf, vacant.memberships]
    rfl
  refine ⟨⟨?_, ?_⟩, fun id => ⟨?_, ?_, ?_⟩⟩
  · intro row rowMem
    rw [vacant.memberships] at rowMem
    exact absurd rowMem List.not_mem_nil
  · intro id present
    rw [vacant.metadata] at present
    cases present
  · intro stored present
    rw [Db.scopeView, vacant.memories] at present
    cases present
  · intro stored present
    rw [Db.scopeView, vacant.metadata] at present
    cases present
  · rw [Db.scopeView, noRows]
    rfl

/-- Every run of governed commands keeps the copies right. -/
theorem scopesCached_run {start final : Db} {calls : List StoreCall} (vacant : start.Vacant)
    (governed : ∀ call ∈ calls, call.command.governed = true)
    (runEq : run storeStep start calls = some final) : final.ScopesCached := by
  refine run_invariant_of_guarded (fun db call next held allowed stepEq => ?_)
    (Guarded.of_forall governed start) vacant.scopesCached runEq
  exact storeStep_within (safe_body allowed call.handle call.now) stepEq held

omit [Host] in
/-- The scope of a memory: the key of its membership with ordinal zero, or the
reserved key when it has none. -/
inductive Db.HasScope (db : Db) (id : MemoryId) : String → Prop where
  | primary (membership : MembershipRow) (stored : membership ∈ db.memoryContexts)
      (own : membership.memoryId = id) (first : membership.ordinal = 0) (row : ContextRow)
      (context : db.contexts.find? membership.contextId = some row) :
      HasScope db id row.context.key
  | unresolved (none : ∀ membership ∈ db.memoryContexts, membership.memoryId = id →
      membership.ordinal ≠ 0) : HasScope db id unresolvedContextKey

omit [Host] in
/-- Memberships numbered from zero have at most one with ordinal zero. -/
theorem Db.ScopesCached.find?_primary {db : Db} (cached : db.ScopesCached) {id : MemoryId}
    {membership : MembershipRow} (stored : membership ∈ db.membershipsOf id)
    (first : membership.ordinal = 0) :
    (db.membershipsOf id).find? (fun row => decide (row.ordinal = 0)) = some membership := by
  have distinct : ((db.membershipsOf id).map (·.ordinal)).Nodup := by
    have numbered : (db.membershipsOf id).map (·.ordinal) = List.range _ :=
      (cached.cached id).ordinals
    rw [numbered]
    exact List.nodup_range
  cases found : (db.membershipsOf id).find? fun row => decide (row.ordinal = 0) with
  | none =>
      have missed := List.find?_eq_none.mp found membership stored
      rw [decide_eq_true_eq] at missed
      exact absurd first missed
  | some other =>
      have otherFirst : other.ordinal = 0 := by simpa using List.find?_some found
      have same := List.inj_on_of_nodup_map distinct (List.mem_of_find?_eq_some found) stored
        (otherFirst.trans first.symm)
      rw [same]

omit [Host] in
/-- In a store with right copies, the scope of a memory is one key. -/
theorem Db.ScopesCached.hasScope_iff {db : Db} (cached : db.ScopesCached) (id : MemoryId)
    (key : String) : db.HasScope id key ↔ key = db.compatibilityScopeKey id := by
  rw [Db.compatibilityScopeKey_eq]
  have members : ∀ membership, membership ∈ db.membershipsOf id ↔
      membership ∈ db.memoryContexts ∧ membership.memoryId = id := by
    intro membership
    rw [Db.membershipsOf, Table.mem_select_iff, decide_eq_true_eq]
  constructor
  · intro scope
    cases scope with
    | primary membership stored own first row context =>
        rw [cached.find?_primary ((members membership).mpr ⟨stored, own⟩) first, Option.bind_some,
          context, Option.map_some, Option.getD_some]
    | unresolved none =>
        have missed : (db.membershipsOf id).find? (fun row => decide (row.ordinal = 0)) =
            Option.none := by
          refine List.find?_eq_none.mpr fun membership stored => ?_
          obtain ⟨stored, own⟩ := (members membership).mp stored
          rw [decide_eq_true_eq]
          exact none membership stored own
        rw [missed, Option.bind_none, Option.map_none, Option.getD_none]
  · rintro rfl
    cases found : (db.membershipsOf id).find? fun row => decide (row.ordinal = 0) with
    | none =>
        refine .unresolved fun membership stored own first => ?_
        rw [cached.find?_primary ((members membership).mpr ⟨stored, own⟩) first] at found
        cases found
    | some membership =>
        obtain ⟨stored, own⟩ := (members membership).mp (List.mem_of_find?_eq_some found)
        have first : membership.ordinal = 0 := by simpa using List.find?_some found
        obtain ⟨row, context⟩ :=
          Option.isSome_iff_exists.mp (cached.anchored.memberships membership stored).2
        rw [Option.bind_some, context, Option.map_some, Option.getD_some]
        exact .primary membership stored own first row context

/-- In every state that governed commands reach from a store without memories,
the provenance of a memory holds its scope, and so does its metadata when a
scope is set there. -/
theorem compatibility_scope_cached {start final : Db} {calls : List StoreCall}
    (vacant : start.Vacant) (governed : ∀ call ∈ calls, call.command.governed = true)
    (runEq : run storeStep start calls = some final) {row : MemoryRow}
    (rowMem : row ∈ final.memories) :
    ∃ key, (∀ other, final.HasScope row.id other ↔ other = key) ∧
      row.provenance.sourceConversation = some key ∧
      ∀ metadata ∈ final.metadata, metadata.metadata.memoryId = row.id →
        ∀ scope, metadata.metadata.scopeKey = some scope → scope = key := by
  have cached := scopesCached_run vacant governed runEq
  refine ⟨final.compatibilityScopeKey row.id, cached.hasScope_iff row.id, ?_, ?_⟩
  · have found : final.memories.find? row.id = some row := Table.find?_eq_some_iff.mpr ⟨rowMem, rfl⟩
    apply (cached.cached row.id).conversation
    rw [Db.scopeView, found, Option.map_some]
  · intro metadata metadataMem own scope stated
    have found : final.metadata.find? row.id = some metadata :=
      Table.find?_eq_some_iff.mpr ⟨metadataMem, own⟩
    apply (cached.cached row.id).metadataScope
    rw [Db.scopeView, found, Option.map_some, stated]

omit [Host] in
/-- A project is created and a memory is stored in it. -/
def storedInProject : List StoreCall :=
  let memory := { Memory.plain ⟨7⟩ "owner" "a note" 0 with
    provenance := { Provenance.default with
      sourceAgent := some "owner"
      sourceConversation := some "atlas" } }
  let audit : ContextAuditDraft := ⟨"owner", "memory_context", none, none, none⟩
  let request : GovernedItem :=
    ⟨⟨memory, none⟩, none, ⟨⟨7⟩, some "atlas", none, none, none, [], 1⟩, [⟨1⟩],
      ⟨.store, some "owner", 0, none⟩, audit⟩
  [.createContext (projectDraft ⟨1⟩ "atlas") audit,
    .storeWithMetadataContexts request].map fun command => ⟨⟨3, none⟩, 0, command⟩

omit [Host] in
theorem compatibility_scope_cached_stored :
    projectKindStore.Vacant ∧
      (∀ call ∈ storedInProject, call.command.governed = true) ∧
      ∃ final, @run _ _ (@storeStep asciiHost) projectKindStore storedInProject = some final ∧
        ∃ row ∈ final.memories, row.provenance.sourceConversation = some "atlas" ∧
          ∀ other, final.HasScope row.id other ↔ other = "atlas" := by
  have vacant : projectKindStore.Vacant := ⟨rfl, rfl, rfl⟩
  have governed : ∀ call ∈ storedInProject, call.command.governed = true := by decide
  have ran : ∃ final, @run _ _ (@storeStep asciiHost) projectKindStore storedInProject =
      some final ∧ ∃ row, final.memories.find? ⟨7⟩ = some row ∧
        row.provenance.sourceConversation = some "atlas" :=
    ⟨_, rfl, _, rfl, rfl⟩
  obtain ⟨final, runEq, row, found, stated⟩ := ran
  have rowMem := (Table.find?_eq_some_iff.mp found).1
  obtain ⟨key, scope, copied, _⟩ :=
    @compatibility_scope_cached asciiHost _ _ _ vacant governed runEq row rowMem
  have same : key = "atlas" := Option.some.inj (copied.symm.trans stated)
  rw [same] at scope
  exact ⟨vacant, governed, final, runEq, row, rowMem, stated, scope⟩

end LocalHold
