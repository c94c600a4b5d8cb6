import LocalHold.Store.RowRules
import LocalHold.Store.ScopeInvariant

/-!
# The flag for a missing scope

Metadata flags a memory that is in no context.  The flag is computed where
metadata is built or patched.  Where a memory only moves between contexts, its
metadata gets the new scope key and keeps the flag.
-/

namespace LocalHold

open Relational Transition Transition.Txn

/-! ## Metadata that states its scope -/

/-- Whether metadata flags a missing scope. -/
def MemoryMetadata.missesScope (metadata : MemoryMetadata) : Bool :=
  metadata.qualityFlags.contains "missing_scope"

/-- Put a scope into a metadata row. -/
def MetadataRow.rescoped (scope : String) (now : Instant) (row : MetadataRow) : MetadataRow :=
  { row with
    metadata := { row.metadata with scopeKey := some scope }
    updatedAt := now }

/-- The only change of metadata is the scope of one memory. -/
def Rescopes (id : MemoryId) (scope : String) (now : Instant) (before after : Db) : Prop :=
  ∀ other, after.metadata.find? other =
    if other = id then (before.metadata.find? other).map (·.rescoped scope now)
    else before.metadata.find? other

theorem rowRules_keepsMetadata : RowRules (Keeps Db.metadata) where
  elsewhere _ metadata := metadata
  rewrites _ := rfl

theorem rescopes_setMetadataScope (id : MemoryId) (scope : String) (now : Instant) :
    Within (Rescopes id scope now) (setMetadataScope id scope now) :=
  Within.writes fun db other => @Table.find?_update _ _ _ _ db.metadata id other
    (MetadataRow.rescoped scope now) (by intro _; rfl)

/-- Statements around a change of scope that leave metadata. -/
theorem Rescopes.within {id : MemoryId} {scope : String} {now : Instant}
    {first changed middle last : Db} (before : Keeps Db.metadata first changed)
    (rescopes : Rescopes id scope now changed middle) (after : Keeps Db.metadata middle last) :
    Rescopes id scope now first last := by
  intro other
  rw [show last.metadata = middle.metadata from after, rescopes,
    show changed.metadata = first.metadata from before]

theorem rescopes_reassignMemory (target : ContextId) (targetKey fromScope principal : String)
    (audit : Option AuditDraft) (now : Instant) (id : MemoryId) :
    Within (Rescopes id targetKey now)
      (reassignMemory target targetKey fromScope principal audit now id) := by
  intro db value next ran
  obtain ⟨_, moved, moveRan, ran⟩ := bind_eq_ok.mp ran
  obtain ⟨_, advanced, advanceRan, ran⟩ := bind_eq_ok.mp ran
  obtain ⟨_, labelled, metadataRan, ran⟩ := bind_eq_ok.mp ran
  have rules := rowRules_keepsMetadata
  refine Rescopes.within ?_ (rescopes_setMetadataScope _ _ _ metadataRan) ?_
  · refine IsTrans.trans db moved advanced ?_ (rules.incrementRecordRevision _ _ advanceRan)
    refine rules.updateMemory (fun row => ?_) moveRan
    exact .of_eq rfl rfl
  · refine Within.bind Within.reads (fun _ => ?_) ran
    refine Within.bind (rules.deleteMembershipRows id) fun _ => ?_
    refine Within.bind (rules.insertMembershipRows _ _ _) fun _ => ?_
    refine Within.bind (rules.insertContextAudit _ _ _ _) fun _ => ?_
    exact Within.onSome fun _ _ => rules.insertAuditDraft _ _

theorem keepsMetadata_insertPreparedWithSupersession (dimensions : Nat)
    (item : MemoryWithEmbedding) (supersedes : Option MemoryId) (audit : Option AuditDraft) :
    Within (Keeps Db.metadata)
      (insertPreparedWithSupersession dimensions item supersedes audit) := by
  have rules := rowRules_keepsMetadata
  refine Within.bind (Within.onSome fun _ _ => (readsOnly_validateSupersededExists _).within)
    fun _ => ?_
  refine Within.bind (Within.bind ?_ fun _ => ?_) fun _ => ?_
  · exact Within.reads_expect_writes fun _ _ _ => rfl
  · refine Within.bind (Within.onSome fun _ _ => rules.vectorUpsert _ _ _) fun _ => ?_
    exact rules.insertEntities _ _
  · refine Within.bind (Within.onSome fun _ _ => ?_) fun _ => ?_
    · exact Within.bind (rules.markSuperseded _ _) fun _ => Within.pure
    · exact Within.onSome fun _ _ => rules.insertAuditDraft _ _

variable [Host]

/-- Metadata names a scope and is flagged exactly when the scope is the reserved
key. -/
def MemoryMetadata.StatesScope (metadata : MemoryMetadata) : Prop :=
  ∃ key, metadata.scopeKey = some key ∧
    (metadata.missesScope = true ↔ normalizeContextKey key = unresolvedContextKey)

/-- All metadata states its scope. -/
def Db.ScopesStated (db : Db) : Prop :=
  ∀ row ∈ db.metadata, row.metadata.StatesScope

theorem Db.ScopesStated.found {db : Db} (stated : db.ScopesStated) {id : MemoryId}
    {row : MetadataRow} (found : db.metadata.find? id = some row) : row.metadata.StatesScope :=
  stated row (Table.mem_of_find? found)

theorem Db.ScopesStated.of_metadata {db next : Db} (stated : db.ScopesStated)
    (same : Keeps Db.metadata db next) : next.ScopesStated := by
  intro row rowMem
  rw [show next.metadata = db.metadata from same] at rowMem
  exact stated row rowMem

/-- A new scope key is stated where the flag already agrees with it. -/
theorem Db.ScopesStated.rescoped {db next : Db} (stated : db.ScopesStated) {id : MemoryId}
    {scope : String} {now : Instant} (rescopes : Rescopes id scope now db next)
    (agrees : ∀ row, db.metadata.find? id = some row →
      (row.metadata.missesScope = true ↔ normalizeContextKey scope = unresolvedContextKey)) :
    next.ScopesStated := by
  intro row rowMem
  rw [Table.mem_iff_find?, rescopes] at rowMem
  split at rowMem
  case isTrue own =>
    obtain ⟨old, oldFound, rfl⟩ := Option.map_eq_some_iff.mp rowMem
    rw [own] at oldFound
    exact ⟨scope, rfl, agrees old oldFound⟩
  case isFalse =>
    exact stated row (Table.mem_of_find? rowMem)

omit [Host] in
/-- A change of scope keeps every flag. -/
theorem Rescopes.missesScope_eq {id : MemoryId} {scope : String} {now : Instant} {db next : Db}
    (rescopes : Rescopes id scope now db next) {other : MemoryId} {row : MetadataRow}
    (found : next.metadata.find? other = some row) :
    ∃ old, db.metadata.find? other = some old ∧
      row.metadata.missesScope = old.metadata.missesScope := by
  rw [rescopes] at found
  split at found
  · obtain ⟨old, oldFound, rfl⟩ := Option.map_eq_some_iff.mp found
    exact ⟨old, oldFound, rfl⟩
  · exact ⟨row, found, rfl⟩

/-! ## Writing metadata -/

omit [Host] in
/-- The metadata that an upsert leaves under its memory. -/
theorem find?_upsertMetadata {metadata : MemoryMetadata} {now : Instant} {db next : Db}
    {value : Unit} (ran : upsertMetadata metadata now db = .ok (value, next)) :
    ∃ row : MetadataRow, (row.metadata.scopeKey = metadata.scopeKey ∧
        row.metadata.qualityFlags = metadata.qualityFlags) ∧
      ∀ id, next.metadata.find? id =
        if id = metadata.memoryId then some row else db.metadata.find? id := by
  have ran := of_reads_bind ran
  obtain ⟨_, ran⟩ := of_require_bind ran
  cases writes_eq_ok.mp ran
  exact ⟨_, ⟨rfl, rfl⟩, fun _ => Table.find?_upsert⟩

theorem MemoryMetadata.StatesScope.of_eq {metadata other : MemoryMetadata}
    (states : metadata.StatesScope) (scope : other.scopeKey = metadata.scopeKey)
    (flags : other.qualityFlags = metadata.qualityFlags) : other.StatesScope := by
  obtain ⟨key, keyed, flagged⟩ := states
  refine ⟨key, scope.trans keyed, ?_⟩
  rw [missesScope, flags]
  exact flagged

theorem Db.ScopesStated.upsert {db next : Db} {metadata : MemoryMetadata} {now : Instant}
    {value : Unit} (stated : db.ScopesStated) (states : metadata.StatesScope)
    (ran : upsertMetadata metadata now db = .ok (value, next)) : next.ScopesStated := by
  obtain ⟨written, ⟨scope, flags⟩, rows⟩ := find?_upsertMetadata ran
  intro row rowMem
  rw [Table.mem_iff_find?, rows] at rowMem
  split at rowMem
  · cases rowMem
    exact states.of_eq scope flags
  · exact stated row (Table.mem_of_find? rowMem)

/-- Merged metadata states the scope that the patch, the old metadata or the
memory names. -/
theorem mergeMetadataPatch_states {id : MemoryId} {patch : MetadataPatch}
    {existing : Option MemoryMetadata} {fallbackScope : Option String} {principal key : String}
    (named : (patch.scopeKey.or (existing.bind (·.scopeKey))).or fallbackScope = some key) :
    (mergeMetadataPatch id patch existing fallbackScope principal).StatesScope := by
  refine ⟨key, named, ?_⟩
  simp only [MemoryMetadata.missesScope, mergeMetadataPatch, named, Option.all_some]
  by_cases unresolved : normalizeContextKey key = unresolvedContextKey
  · simp [unresolved]
  · simp [unresolved]

/-! ## Patches -/

/-- The scope of the metadata that a patch leaves. -/
def Db.patchedScope (db : Db) (id : MemoryId) (patch : MetadataPatch) : String :=
  patch.scopeKey.getD (db.compatibilityScopeKey id)

omit [Host] in
/-- The metadata of a memory names a scope. -/
def Db.NamesScope (db : Db) (id : MemoryId) (scope : String) : Prop :=
  ∀ row, db.metadata.find? id = some row → row.metadata.scopeKey = some scope

omit [Host] in
theorem Db.NamesScope.of_metadata {db next : Db} {id : MemoryId} {scope : String}
    (names : db.NamesScope id scope) (same : Keeps Db.metadata db next) :
    next.NamesScope id scope := by
  intro row found
  rw [show next.metadata = db.metadata from same] at found
  exact names row found

/-- Where the metadata of a memory names a scope already, naming it again
changes nothing that the flag depends on. -/
theorem Db.ScopesStated.renamed {db next : Db} (stated : db.ScopesStated) {id : MemoryId}
    {scope : String} {now : Instant} (names : db.NamesScope id scope)
    (rescopes : Rescopes id scope now db next) : next.ScopesStated := by
  refine stated.rescoped rescopes fun row found => ?_
  obtain ⟨key, keyed, flagged⟩ := stated.found found
  rw [names row found] at keyed
  cases keyed
  exact flagged

/-- A patch of a memory whose copies are right states the patched scope. -/
theorem stated_applyMetadataPatch {id : MemoryId} {patch : MetadataPatch} {row : MemoryRow}
    {principal : String} {now : Instant} {start db next : Db} {value : Unit}
    (cached : start.ScopesCached) (stated : db.ScopesStated)
    (found : start.memories.find? id = some row) (same : Keeps Db.metadata start db)
    (ran : applyMetadataPatch id patch row.toMemory.provenance.sourceConversation principal now db =
      .ok (value, next)) :
    next.ScopesStated ∧ next.NamesScope id (start.patchedScope id patch) := by
  have ran := of_reads_bind ran
  have conversation : row.toMemory.provenance.sourceConversation =
      some (start.compatibilityScopeKey id) := by
    refine (cached.cached id).conversation row.provenance.sourceConversation ?_
    simp only [Db.scopeView, found, Option.map_some]
  have named : (patch.scopeKey.or (((db.metadata.find? id).map (·.metadata)).bind
      (·.scopeKey))).or row.toMemory.provenance.sourceConversation =
        some (start.patchedScope id patch) := by
    rw [conversation, Db.patchedScope]
    cases patch.scopeKey with
    | some scope => rfl
    | none =>
        cases present : db.metadata.find? id with
        | none => rfl
        | some existing =>
            obtain ⟨key, keyed, _⟩ := stated.found present
            have copied := (cached.cached id).metadataScope key (by
              rw [Db.scopeView, ← show db.metadata = start.metadata from same, present]
              exact congrArg some keyed)
            simp only [Option.map_some, Option.bind_some, keyed, Option.none_or, Option.some_or,
              Option.getD_none]
            exact congrArg some copied
  refine ⟨stated.upsert (mergeMetadataPatch_states named) ran, fun after afterFound => ?_⟩
  obtain ⟨written, ⟨scope, _⟩, rows⟩ := find?_upsertMetadata ran
  rw [rows, if_pos (by rfl)] at afterFound
  cases afterFound
  exact scope.trans named

theorem rescopes_replaceMemoryContextsTx (id : MemoryId) (contextIds : List ContextId)
    (principal scope : String) (audit : ContextAuditDraft) (now : Instant) :
    Within (Rescopes id scope now)
      (replaceMemoryContextsTx id contextIds principal scope audit now) := by
  intro db value next ran
  have rules := rowRules_keepsMetadata
  have ran := of_reads_bind ran
  obtain ⟨_, emptied, deleteRan, ran⟩ := bind_eq_ok.mp ran
  obtain ⟨_, joined, insertRan, ran⟩ := bind_eq_ok.mp ran
  obtain ⟨_, labelled, metadataRan, ran⟩ := bind_eq_ok.mp ran
  obtain ⟨_, _, memoryRan, done⟩ := bind_eq_ok.mp ran
  cases pure_eq_ok.mp done
  refine Rescopes.within ?_ (rescopes_setMetadataScope _ _ _ metadataRan) ?_
  · exact IsTrans.trans db emptied joined (rules.deleteMembershipRows id deleteRan)
      (rules.insertMemoryContexts _ _ _ _ _ _ _ insertRan)
  · refine rules.updateMemory (fun row => ?_) memoryRan
    exact .of_eq rfl rfl

/-- A patch after an update states the patched scope. -/
theorem stated_applyPatchAfterUpdate {id : MemoryId} {update : MemoryUpdate}
    {patch : Option MetadataPatch} {row : MemoryRow} {principal : String} {now : Instant}
    {start db next : Db} {value : Unit} (cached : start.ScopesCached) (stated : db.ScopesStated)
    (found : start.memories.find? id = some row) (same : Keeps Db.metadata start db)
    (ran : applyPatchAfterUpdate id update patch row.toMemory principal now db =
      .ok (value, next)) :
    next.ScopesStated ∧
      ∀ changes, patch = some changes → next.NamesScope id (start.patchedScope id changes) := by
  obtain ⟨_, patched, patchRan, ran⟩ := bind_eq_ok.mp ran
  have later : Keeps Db.metadata patched next :=
    Within.onSome (fun _ _ => rowRules_keepsMetadata.incrementRecordRevision _ _) ran
  cases patch with
  | none =>
      cases pure_eq_ok.mp patchRan
      exact ⟨stated.of_metadata later, fun _ absent => nomatch absent⟩
  | some changes =>
      obtain ⟨states, names⟩ := stated_applyMetadataPatch cached stated found same patchRan
      refine ⟨states.of_metadata later, fun other given => ?_⟩
      cases given
      exact names.of_metadata later

theorem stated_updateAuthorizedWithMetadata {id : MemoryId} {update : MemoryUpdate}
    {patch : Option MetadataPatch} {principal : String} {audit : Option AuditDraft}
    {now : Instant} {db next : Db} {outcome : AuthorizedUpdateOutcome}
    (cached : db.ScopesCached) (stated : db.ScopesStated)
    (ran : updateAuthorizedWithMetadata id update patch principal audit now db =
      .ok (outcome, next)) : next.ScopesStated := by
  have rules := rowRules_keepsMetadata
  have ran := of_reads_bind ran
  cases found : db.memories.find? id with
  | none =>
      rw [found] at ran
      cases pure_eq_ok.mp ran
      exact stated
  | some row =>
      rw [found] at ran
      dsimp only [Option.map_some] at ran
      split at ran
      · obtain ⟨_, checked, ran⟩ := (readsOnly_validateCompatibilityCacheUpdate _ _ _).of_bind ran
        obtain ⟨outcome, updated, updateRan, ran⟩ := bind_eq_ok.mp ran
        have same := rules.applyUpdateInner _ _ _ updateRan
        split at ran
        · obtain ⟨_, patched, patchRan, ran⟩ := bind_eq_ok.mp ran
          have later : Keeps Db.metadata patched next :=
            Within.bind (Within.onSome fun _ _ => rules.insertAuditDraft _ _)
              (fun _ => Within.pure) ran
          have patchedStated :=
            (stated_applyPatchAfterUpdate cached (stated.of_metadata same) found same patchRan).1
          exact patchedStated.of_metadata later
        · cases pure_eq_ok.mp ran
          exact stated.of_metadata same
      · cases pure_eq_ok.mp ran
        exact stated

/-- A governed update names the new scope in its patch, so the flag is computed
from it before the memberships are replaced. -/
theorem stated_updateAuthorizedWithMetadataContexts {id : MemoryId} {update : MemoryUpdate}
    {patch : Option MetadataPatch} {contextIds : Option (List ContextId)} {principal : String}
    {audit : AuditDraft} {contextAudit : Option ContextAuditDraft} {now : Instant}
    {db next : Db} {outcome : AuthorizedUpdateOutcome} (cached : db.ScopesCached)
    (stated : db.ScopesStated)
    (ran : updateAuthorizedWithMetadataContexts id update patch contextIds principal audit
      contextAudit now db = .ok (outcome, next)) : next.ScopesStated := by
  have rules := rowRules_keepsMetadata
  obtain ⟨_, ran⟩ := of_require_bind ran
  have ran := of_reads_bind ran
  cases found : db.memories.find? id with
  | none =>
      rw [found] at ran
      cases pure_eq_ok.mp ran
      exact stated
  | some row =>
      rw [found] at ran
      dsimp only [Option.map_some] at ran
      split at ran
      · have checks : ReadsOnly (onSome (if contextIds.isNone then some () else none) fun _ =>
            validateCompatibilityCacheUpdate id update patch) :=
          Within.onSome fun _ _ => readsOnly_validateCompatibilityCacheUpdate _ _ _
        obtain ⟨_, checked, ran⟩ := checks.of_bind ran
        obtain ⟨outcome, updated, updateRan, ran⟩ := bind_eq_ok.mp ran
        have same := rules.applyUpdateInner _ _ _ updateRan
        split at ran
        · obtain ⟨_, patched, patchRan, ran⟩ := bind_eq_ok.mp ran
          obtain ⟨_, replaced, replaceRan, ran⟩ := bind_eq_ok.mp ran
          obtain ⟨patchedStated, names⟩ :=
            stated_applyPatchAfterUpdate cached (stated.of_metadata same) found same patchRan
          have later : Keeps Db.metadata replaced next :=
            Within.bind (rules.insertAuditDraft _ _) (fun _ => Within.pure) ran
          refine Db.ScopesStated.of_metadata ?_ later
          cases contextIds with
          | none =>
              cases pure_eq_ok.mp replaceRan
              exact patchedStated
          | some ids =>
              obtain ⟨draft, _, replaceRan⟩ := of_expect_bind replaceRan
              obtain ⟨scope, named, replaceRan⟩ := of_expect_bind replaceRan
              obtain ⟨_, txRan⟩ := of_require_bind replaceRan
              obtain ⟨changes, rfl, keyed⟩ := Option.bind_eq_some_iff.mp named
              have names := names changes rfl
              rw [Db.patchedScope, keyed, Option.getD_some] at names
              exact patchedStated.renamed names
                (rescopes_replaceMemoryContextsTx _ _ _ _ _ _ txRan)
        · cases pure_eq_ok.mp ran
          exact stated.of_metadata same
      · cases pure_eq_ok.mp ran
        exact stated

/-! ## Moving memories -/

/-- Memories that are not flagged may be moved to any context whose key is not
the reserved one. -/
theorem stated_reassignAll {target : ContextId} {targetKey fromScope principal : String}
    {audit : Option AuditDraft} {now : Instant} {ids : List MemoryId} {db next : Db}
    {value : Unit} (reserved : normalizeContextKey targetKey ≠ unresolvedContextKey)
    (stated : db.ScopesStated)
    (unflagged : ∀ id ∈ ids, ∀ row, db.metadata.find? id = some row →
      row.metadata.missesScope = false)
    (ran : ids.forM (reassignMemory target targetKey fromScope principal audit now) db =
      .ok (value, next)) : next.ScopesStated := by
  induction ids generalizing db with
  | nil =>
      cases pure_eq_ok.mp ran
      exact stated
  | cons id ids inductionHypothesis =>
      obtain ⟨_, middle, firstRan, restRan⟩ := bind_eq_ok.mp ran
      have rescopes := rescopes_reassignMemory _ _ _ _ _ _ _ firstRan
      refine inductionHypothesis ?_ ?_ restRan
      · refine stated.rescoped rescopes fun row found => ?_
        rw [unflagged id List.mem_cons_self row found]
        exact ⟨fun flagged => (nomatch flagged), fun unresolved => absurd unresolved reserved⟩
      · intro other otherMem row found
        obtain ⟨old, oldFound, sameFlag⟩ := rescopes.missesScope_eq found
        rw [sameFlag]
        exact unflagged other (List.mem_cons_of_mem id otherMem) old oldFound

/-! ## Deleting memories -/

/-- All metadata still states its scope. -/
def StatesScopes (before after : Db) : Prop :=
  before.ScopesStated → after.ScopesStated

instance : Std.Refl StatesScopes :=
  ⟨fun _ stated => stated⟩

instance : IsTrans Db StatesScopes :=
  ⟨fun _ _ _ early late stated => late (early stated)⟩

theorem states_of_keepsMetadata {α : Type} {body : StoreM α}
    (inner : Within (Keeps Db.metadata) body) : Within StatesScopes body :=
  inner.mono fun _ _ same stated => stated.of_metadata same

theorem states_entombMemory (memory : Memory) (deletedAt : Instant) (deletedBy : Option String) :
    Within StatesScopes (entombMemory memory deletedAt deletedBy) := by
  refine Within.bind (states_of_keepsMetadata (Within.writes fun _ => rfl)) fun _ => ?_
  refine Within.bind (readsOnly_memoryExists memory.id).within fun present => ?_
  cases present with
  | false => exact Within.pure
  | true =>
      refine Within.bind (Within.writes fun db stated row rowMem => ?_) fun _ => Within.pure
      rw [Table.mem_iff_find?] at rowMem
      simp only [Db.dropMemory, Table.find?_delete] at rowMem
      split at rowMem
      · cases rowMem
      · exact stated.found rowMem

theorem states_insertAuditDraft (id : MemoryId) (audit : AuditDraft) :
    Within StatesScopes (insertAuditDraft id audit) :=
  states_of_keepsMetadata (rowRules_keepsMetadata.insertAuditDraft id audit)

end LocalHold
