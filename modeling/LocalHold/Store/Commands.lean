import LocalHold.Store.Admin

/-!
# Store commands and runs

Every operation that writes the database after it has been opened, as one
command.  A command is one transaction: it commits as a whole or leaves the
database as it was.  Identifiers of new memories come from the ULID generator,
which never repeats one; a command that would store under the identifier of a
deleted memory is therefore not enabled.
-/

namespace LocalHold

open Relational Transition Transition.Txn

/-- What a process brings to its store calls: the dimension it was opened with
and the embedding profile it verified. -/
structure StoreHandle where
  dimensions : Nat
  activeProfile : Option EmbeddingProfile
deriving DecidableEq

/-- The writing operations of the store. -/
inductive StoreCommand where
  | store (item : MemoryWithEmbedding) (audit : Option AuditDraft)
  | storeWithSupersession (item : MemoryWithEmbedding) (supersedes : MemoryId)
      (audit : Option AuditDraft)
  | storeWithMetadata (item : MemoryWithEmbedding) (supersedes : Option MemoryId)
      (metadata : MemoryMetadata) (audit : Option AuditDraft)
  | storeWithMetadataContexts (request : GovernedItem)
  | storeBatch (items : List MemoryWithEmbedding) (audits : Option (List AuditDraft))
  | storeBatchWithSupersession (items : List MemoryWithEmbedding)
      (supersedes : List (Option MemoryId)) (audits : Option (List AuditDraft))
  | storeBatchWithMetadata (items : List MemoryWithEmbedding)
      (supersedes : List (Option MemoryId)) (metadata : List MemoryMetadata)
      (audits : Option (List AuditDraft))
  | storeBatchWithMetadataContexts (items : List MemoryWithEmbedding)
      (supersedes : List (Option MemoryId)) (metadata : List MemoryMetadata)
      (contextIds : List (List ContextId)) (audits : List AuditDraft)
      (contextAudits : List ContextAuditDraft)
  | update (id : MemoryId) (update : MemoryUpdate)
  | updateAuthorized (id : MemoryId) (update : MemoryUpdate) (principal : String)
      (audit : Option AuditDraft)
  | updateAuthorizedWithMetadata (id : MemoryId) (update : MemoryUpdate)
      (patch : Option MetadataPatch) (principal : String) (audit : Option AuditDraft)
  | updateAuthorizedWithMetadataContexts (id : MemoryId) (update : MemoryUpdate)
      (patch : Option MetadataPatch) (contextIds : Option (List ContextId)) (principal : String)
      (audit : AuditDraft) (contextAudit : Option ContextAuditDraft)
  | updateIfUnmodified (id : MemoryId) (expectedRevision : Int) (update : MemoryUpdate)
      (patch : Option MetadataPatch) (contextIds : Option (List ContextId))
      (embedding : Option Embedding) (principal : String) (audit : AuditDraft)
      (contextAudit : Option ContextAuditDraft)
  | bulkUpdate (ids : List MemoryId) (update : MemoryUpdate) (principal : String)
      (audit : Option AuditDraft)
  | delete (id : MemoryId)
  | deleteAuthorized (id : MemoryId) (principal : String) (audit : Option AuditDraft)
  | deleteIfUnmodified (id : MemoryId) (expectedRevision : Int) (principal : String)
      (audit : AuditDraft)
  | bulkDelete (ids : List MemoryId) (principal : String) (audit : Option AuditDraft)
  | evictExpired (scope : ExpiredCleanupScope) (audit : AuditDraft)
  | markSupersededBy (id supersededBy : MemoryId)
  | markSupersededByAuthorized (id supersededBy : MemoryId) (principal : String)
      (audit : Option AuditDraft)
  | markSupersededIfUnchanged (member representative : ConsolidationSnapshot)
      (principal : String) (audit : AuditDraft)
  | recordSearchImpression (ids : List MemoryId)
  | recordMemoryUse (decayMass : ℚ → Option Instant → Instant → ℚ) (ids : List MemoryId)
      (principal : String) (eventWeight : ℚ)
  | writeAuditEntry (id : MemoryId) (audit : AuditDraft)
  | claimForReembed (principal : Option String) (limit : Nat) (token : String)
  | releaseEmbeddingClaim (id : MemoryId) (expectedRevision : Int) (token : String)
  | setEmbedding (id : MemoryId) (embedding : Embedding) (expectedRevision : Int)
  | verifyEmbeddingProfile (profile : EmbeddingProfile)
  | reindexEmbeddings (profile : EmbeddingProfile)
  | upsertMetadata (metadata : MemoryMetadata) (audit : Option AuditDraft)
  | migrateMetadata (dryRun : Bool) (audit : Option AuditDraft)
  | registerScope (newId : Nat → ContextId) (scope : ScopeDefinition) (principal : String)
  | reassignScope (newId : ContextId) (fromScope toScope : String) (origin : Option String)
      (principal : String) (audit : Option AuditDraft)
  | replaceMemoryContexts (id : MemoryId) (contextIds : List ContextId) (principal : String)
      (audit : ContextAuditDraft)
  | createContext (draft : ContextCreateDraft) (audit : ContextAuditDraft)
  | setContextParent (id : ContextId) (parentId : Option ContextId) (principal : String)
      (audit : ContextAuditDraft)
  | setContextLifecycle (id : ContextId) (lifecycle : ContextLifecycle) (principal : String)
      (audit : ContextAuditDraft)
  | grantContextUse (id : ContextId) (grantee principal : String) (audit : ContextAuditDraft)
  | revokeContextUse (id : ContextId) (grantee principal : String) (audit : ContextAuditDraft)
  | replaceContextGrants (id : ContextId) (grantees : List String) (principal : String)
      (audit : ContextAuditDraft)
  | updateContextDefinition (id : ContextId) (patch : ContextDefinitionPatch)
      (principal : String) (audit : ContextAuditDraft)
  | upsertContextKind (kind : ContextKind) (displayName : String) (enabled : Bool)
      (principal : String) (audit : ContextAuditDraft)
  | upsertContextKindPolicy (layer : ContextPolicyLayer) (policyPrincipal : String)
      (kind : ContextKind) (policy : ContextKindPolicy) (principal : String)
      (audit : ContextAuditDraft)
  | upsertContextAnchorPolicy (anchorId : ContextId) (policyPrincipal : String)
      (policy : ContextAnchorPolicy) (principal : String) (audit : ContextAuditDraft)
  | rollbackUnreferencedLegacyContext (id : ContextId) (principal : String)

namespace StoreCommand

/-- Run a transaction for its effect. -/
def discard {α : Type} (body : StoreM α) : StoreM Unit := do
  let _ ← body

/-- The transaction of a command. -/
def body [Host] (handle : StoreHandle) (now : Instant) : StoreCommand → StoreM Unit
  | store item audit => discard (LocalHold.store handle.dimensions item audit)
  | storeWithSupersession item supersedes audit =>
      discard (LocalHold.storeWithSupersession handle.dimensions item supersedes audit)
  | storeWithMetadata item supersedes metadata audit =>
      discard (LocalHold.storeWithMetadata handle.dimensions item supersedes metadata audit now)
  | storeWithMetadataContexts request =>
      discard (LocalHold.storeWithMetadataContexts handle.dimensions request now)
  | storeBatch items audits => discard (LocalHold.storeBatch handle.dimensions items audits)
  | storeBatchWithSupersession items supersedes audits =>
      discard (LocalHold.storeBatchWithSupersession handle.dimensions items supersedes audits)
  | storeBatchWithMetadata items supersedes metadata audits =>
      discard (LocalHold.storeBatchWithMetadata handle.dimensions items supersedes metadata
        audits now)
  | storeBatchWithMetadataContexts items supersedes metadata contextIds audits contextAudits =>
      discard (LocalHold.storeBatchWithMetadataContexts handle.dimensions items supersedes
        metadata contextIds audits contextAudits now)
  | update id changes => discard (applyUpdate id changes now)
  | updateAuthorized id changes principal audit =>
      discard (LocalHold.updateAuthorized id changes principal audit now)
  | updateAuthorizedWithMetadata id changes patch principal audit =>
      discard (LocalHold.updateAuthorizedWithMetadata id changes patch principal audit now)
  | updateAuthorizedWithMetadataContexts id changes patch contextIds principal audit
      contextAudit =>
      discard (LocalHold.updateAuthorizedWithMetadataContexts id changes patch contextIds
        principal audit contextAudit now)
  | updateIfUnmodified id expectedRevision changes patch contextIds embedding principal audit
      contextAudit =>
      discard (updateAuthorizedIfUnmodified handle.dimensions handle.activeProfile id
        expectedRevision changes patch contextIds embedding principal audit contextAudit now)
  | bulkUpdate ids changes principal audit =>
      discard (bulkUpdateIds ids changes principal audit now)
  | delete id => discard (applyDelete id now)
  | deleteAuthorized id principal audit =>
      discard (LocalHold.deleteAuthorized id principal audit now)
  | deleteIfUnmodified id expectedRevision principal audit =>
      discard (deleteAuthorizedIfUnmodified id expectedRevision principal audit now)
  | bulkDelete ids principal audit => discard (bulkDeleteIds ids principal audit now)
  | evictExpired scope audit => discard (LocalHold.evictExpired scope audit now)
  | markSupersededBy id supersededBy => discard (markSuperseded id supersededBy)
  | markSupersededByAuthorized id supersededBy principal audit =>
      discard (LocalHold.markSupersededByAuthorized id supersededBy principal audit)
  | markSupersededIfUnchanged member representative principal audit =>
      discard (LocalHold.markSupersededIfUnchanged member representative principal audit)
  | recordSearchImpression ids => LocalHold.recordSearchImpression ids now
  | recordMemoryUse decayMass ids principal eventWeight =>
      discard (LocalHold.recordMemoryUse decayMass ids principal eventWeight now)
  | writeAuditEntry id audit => insertAuditDraft id audit
  | claimForReembed principal limit token =>
      discard (LocalHold.claimForReembed principal limit token now)
  | releaseEmbeddingClaim id expectedRevision token =>
      discard (LocalHold.releaseEmbeddingClaim id expectedRevision token)
  | setEmbedding id embedding expectedRevision =>
      LocalHold.setEmbedding handle.dimensions handle.activeProfile id embedding expectedRevision
  | verifyEmbeddingProfile profile => LocalHold.verifyEmbeddingProfile profile
  | reindexEmbeddings profile => LocalHold.reindexEmbeddings profile
  | upsertMetadata metadata audit => upsertMetadataAudited metadata audit now
  | migrateMetadata dryRun audit => discard (LocalHold.migrateMetadata dryRun audit now)
  | registerScope newId scope principal => registerLegacyScopeContext newId scope principal now
  | reassignScope newId fromScope toScope origin principal audit =>
      discard (applyReassignScope newId fromScope toScope origin principal audit now)
  | replaceMemoryContexts id contextIds principal audit =>
      discard (LocalHold.replaceMemoryContexts id contextIds principal audit now)
  | createContext draft audit => discard (LocalHold.createContext draft audit now)
  | setContextParent id parentId principal audit =>
      LocalHold.setContextParent id parentId principal audit now
  | setContextLifecycle id lifecycle principal audit =>
      LocalHold.setContextLifecycle id lifecycle principal audit now
  | grantContextUse id grantee principal audit =>
      LocalHold.grantContextUse id grantee principal audit now
  | revokeContextUse id grantee principal audit =>
      LocalHold.revokeContextUse id grantee principal audit now
  | replaceContextGrants id grantees principal audit =>
      LocalHold.replaceContextGrants id grantees principal audit now
  | updateContextDefinition id patch principal audit =>
      LocalHold.updateContextDefinition id patch principal audit now
  | upsertContextKind kind displayName enabled principal audit =>
      LocalHold.upsertContextKind kind displayName enabled principal audit now
  | upsertContextKindPolicy layer policyPrincipal kind policy principal audit =>
      LocalHold.upsertContextKindPolicy layer policyPrincipal kind policy principal audit now
  | upsertContextAnchorPolicy anchorId policyPrincipal policy principal audit =>
      LocalHold.upsertContextAnchorPolicy anchorId policyPrincipal policy principal audit now
  | rollbackUnreferencedLegacyContext id principal =>
      discard (LocalHold.rollbackUnreferencedLegacyContext id principal)

/-- The memories a command stores, with the vectors it passes. -/
def storedItems : StoreCommand → List MemoryWithEmbedding
  | store item _ => [item]
  | storeWithSupersession item _ _ => [item]
  | storeWithMetadata item _ _ _ => [item]
  | storeWithMetadataContexts request => [request.item]
  | storeBatch items _ => items
  | storeBatchWithSupersession items _ _ => items
  | storeBatchWithMetadata items _ _ _ => items
  | storeBatchWithMetadataContexts items _ _ _ _ _ => items
  | _ => []

/-- The identifiers a command stores under. -/
def newIds (command : StoreCommand) : List MemoryId :=
  command.storedItems.map (·.memory.id)

end StoreCommand

/-- One command issued by a process at a time of its clock. -/
structure StoreCall where
  handle : StoreHandle
  now : Instant
  command : StoreCommand

/-- Commit a transaction; an aborted one changes nothing. -/
def Db.commit {α : Type} (db : Db) (body : StoreM α) : Db :=
  match body db with
  | .ok result => result.2
  | .error _ => db

/-- Whether the identifiers a command stores under are new. -/
def Db.idsUnused (db : Db) (command : StoreCommand) : Bool :=
  command.newIds.all fun id => !db.tombstones.contains id

/-- One step of the store. -/
def storeStep [Host] (db : Db) (call : StoreCall) : Option Db :=
  if db.idsUnused call.command then
    some (db.commit (call.command.body call.handle call.now))
  else
    none

/-! ## Steps by their outcome -/

theorem commit_discard {α : Type} {body : StoreM α} {db : Db} {value : α} {next : Db}
    (ran : body db = .ok (value, next)) : db.commit (StoreCommand.discard body) = next := by
  have discarded : StoreCommand.discard body db = .ok ((), next) :=
    bind_eq_ok.mpr ⟨value, next, ran, rfl⟩
  simp only [Db.commit, discarded]

variable [Host]

/-- A command whose transaction succeeds is a step to the state it leaves. -/
theorem storeStep_of_ok {db next : Db} {call : StoreCall} {α : Type} {body : StoreM α} {value : α}
    (unused : db.idsUnused call.command = true)
    (bodyEq : call.command.body call.handle call.now = StoreCommand.discard body)
    (ran : body db = .ok (value, next)) : storeStep db call = some next := by
  rw [storeStep, if_pos unused, bodyEq, commit_discard ran]

/-- A command whose transaction aborts is a step that changes nothing. -/
theorem storeStep_of_error {db : Db} {call : StoreCall}
    (unused : db.idsUnused call.command = true)
    (aborts : ∃ error, call.command.body call.handle call.now db = .error error) :
    storeStep db call = some db := by
  obtain ⟨error, aborted⟩ := aborts
  simp [storeStep, unused, Db.commit, aborted]

/-- So is one whose transaction leaves the state whenever it succeeds. -/
theorem storeStep_of_unchanged {db : Db} {call : StoreCall} {α : Type} {body : StoreM α}
    (unused : db.idsUnused call.command = true)
    (bodyEq : call.command.body call.handle call.now = StoreCommand.discard body)
    (unchanged : ∀ value next, body db = .ok (value, next) → next = db) :
    storeStep db call = some db := by
  have committed : db.commit (StoreCommand.discard body) = db := by
    unfold Db.commit
    split
    case h_1 result ran =>
      obtain ⟨value, _, bodyRan, done⟩ := bind_eq_ok.mp ran
      cases pure_eq_ok.mp done
      exact unchanged value _ bodyRan
    case h_2 => rfl
  simp [storeStep, unused, bodyEq, committed]

/-- A step stores under new identifiers, and either its transaction aborts or it
leads to the next state. -/
theorem storeStep_ran {db next : Db} {call : StoreCall} (stepEq : storeStep db call = some next) :
    db.idsUnused call.command = true ∧
      (next = db ∨ call.command.body call.handle call.now db = .ok ((), next)) := by
  unfold storeStep Db.commit at stepEq
  split at stepEq
  case isTrue unused =>
    refine ⟨unused, ?_⟩
    split at stepEq
    case h_1 result ran =>
      cases stepEq
      exact Or.inr ran
    case h_2 =>
      cases stepEq
      exact Or.inl rfl
  case isFalse => cases stepEq

/-- The store step of a command that runs one transaction. -/
theorem storeStep_cases {α : Type} {db next : Db} {call : StoreCall} {body : StoreM α}
    (bodyEq : call.command.body call.handle call.now = StoreCommand.discard body)
    (stepEq : storeStep db call = some next) :
    next = db ∨ ∃ value, body db = .ok (value, next) := by
  rcases (storeStep_ran stepEq).2 with unchanged | ran
  · exact Or.inl unchanged
  · rw [bodyEq] at ran
    obtain ⟨value, middle, bodyRan, done⟩ := bind_eq_ok.mp ran
    cases pure_eq_ok.mp done
    exact Or.inr ⟨value, bodyRan⟩

end LocalHold
