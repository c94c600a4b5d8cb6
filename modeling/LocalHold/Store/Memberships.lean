import LocalHold.Store.Statements

/-!
# Context visibility and memory memberships

The authorization predicates of `context_store.rs` and the statements that
write the memberships of a memory together with its compatibility scope.
-/

namespace LocalHold

open Relational Transition Transition.Txn

variable [Host]

/-- `context_visible_sql`: the owner, a named grantee, or everyone. -/
def Db.contextVisible (db : Db) (context : ContextDefinition) (principal : String) : Bool :=
  context.ownerPrincipal == principal ||
    db.contextGrants.rows.any fun grant =>
      grant.contextId == context.id &&
        (grant.granteePrincipal == principal ||
          grant.granteePrincipal == legacyAllPrincipalsGrant)

/-- `fetch_context_authorized`. -/
def Db.fetchContextAuthorized (db : Db) (id : ContextId) (principal : String) :
    Option ContextDefinition :=
  ((db.contexts.find? id).map (·.context)).filter fun context =>
    db.contextVisible context principal

/-- Whether the kind of a context is enabled. -/
def Db.kindIsEnabled (db : Db) (kind : ContextKind) : Bool :=
  match db.contextKinds.find? kind with
  | some definition => definition.enabled
  | none => false

/-- `context_use_allowed`. -/
def Db.contextUseAllowed (db : Db) (id : ContextId) (principal : String)
    (requireActive : Bool) : Bool :=
  match db.contexts.find? id with
  | none => false
  | some row =>
      db.kindIsEnabled row.context.kind &&
        (!requireActive || row.context.lifecycle == .active) &&
        db.contextVisible row.context principal

/-- `validate_audit_actor`. -/
def validateAuditActor (audit : ContextAuditDraft) (principal : String) : StoreM Unit := do
  require (!isBlank principal && !isBlank audit.actorPrincipal)
    (.conflict "context audit actor and authorized principal cannot be blank")
  require (audit.actorPrincipal == principal)
    (.conflict "context audit actor must match the authorized principal")

/-- The contexts a memory currently belongs to. -/
def Db.membershipIds (db : Db) (id : MemoryId) : List ContextId :=
  (db.memoryContexts.select fun row => decide (row.memoryId = id)).map (·.contextId)

/-- Refuse contexts the principal may not attach; a membership the memory
already holds may be archived. -/
def requireUsableContexts (contextIds preserved : List ContextId) (principal : String) :
    StoreM Unit :=
  contextIds.forM fun contextId => do
    let usable ← reads fun db =>
      db.contextUseAllowed contextId principal (!preserved.contains contextId)
    require usable
      (.conflict ("context " ++ contextId.display ++
        " is unavailable, archived, or not granted to principal " ++ Host.debugText principal))

omit [Host] in
/-- `INSERT INTO memory_contexts` for each context, in order. -/
def insertMembershipRows (id : MemoryId) (contextIds : List ContextId) (now : Instant) :
    StoreM Unit :=
  contextIds.zipIdx.forM fun item => do
    let parents ← reads fun db => db.memories.contains id && db.contexts.contains item.1
    require parents foreignKeyError
    let ordinalFree ← reads fun db =>
      !db.memoryContexts.rows.any fun row => row.memoryId == id && row.ordinal == item.2
    require ordinalFree (uniqueError "memory_contexts.memory_id, memory_contexts.ordinal")
    let next ← reads fun db => db.memoryContexts.insert? ⟨id, item.1, item.2, now⟩
    let memberships ← expect next
      (uniqueError "memory_contexts.memory_id, memory_contexts.context_id")
    writes fun db => { db with memoryContexts := memberships }

omit [Host] in
/-- The key of the primary context, or the reserved key for no context. -/
def primaryContextKey (contextIds : List ContextId) : StoreM String :=
  match contextIds with
  | [] => pure unresolvedContextKey
  | primary :: _ => do
      let row ← reads fun db => db.contexts.find? primary
      let found ← expect row (.database "Query returned no rows")
      return found.context.key

/-- `insert_memory_contexts_sqlite`. -/
def insertMemoryContexts (id : MemoryId) (contextIds : List ContextId)
    (principal compatibilityScope : String) (audit : ContextAuditDraft) (now : Instant)
    (preserved : List ContextId) : StoreM Unit := do
  validateAuditActor audit principal
  require (decide contextIds.Nodup) (.conflict "memory context memberships must be unique")
  requireUsableContexts contextIds preserved principal
  let expectedScope ← primaryContextKey contextIds
  require (compatibilityScope == expectedScope)
    (.conflict ("compatibility scope " ++ Host.debugText compatibilityScope ++
      " does not match primary governed context " ++ Host.debugText expectedScope))
  insertMembershipRows id contextIds now
  insertContextAudit audit none (some id) now

/-- `insert_initial_memory_contexts_sqlite`. -/
def insertInitialMemoryContexts (id : MemoryId) (contextIds : List ContextId)
    (principal compatibilityScope : String) (audit : ContextAuditDraft) (now : Instant) :
    StoreM Unit :=
  insertMemoryContexts id contextIds principal compatibilityScope audit now []

omit [Host] in
/-- `DELETE FROM memory_contexts WHERE memory_id = ?`. -/
def deleteMembershipRows (id : MemoryId) : StoreM Unit :=
  writes fun db =>
    { db with
      memoryContexts := db.memoryContexts.deleteWhere fun row => decide (row.memoryId = id) }

omit [Host] in
/-- `UPDATE memory_metadata SET scope_key = ?, updated_at = ? WHERE memory_id = ?`. -/
def setMetadataScope (id : MemoryId) (scope : String) (now : Instant) : StoreM Unit :=
  writes fun db =>
    { db with
      metadata := db.metadata.update id fun row =>
        { row with
          metadata := { row.metadata with scopeKey := some scope }
          updatedAt := now } }

/-- Replace the conversation of a memory's provenance. -/
def Provenance.withConversation (provenance : Provenance) (scope : String) : Provenance :=
  { provenance with sourceConversation := some scope }

/-- `replace_memory_contexts_sqlite_tx`.  The record revision is advanced by
the callers. -/
def replaceMemoryContextsTx (id : MemoryId) (contextIds : List ContextId)
    (principal compatibilityScope : String) (audit : ContextAuditDraft) (now : Instant) :
    StoreM Unit := do
  let preserved ← reads fun db => db.membershipIds id
  deleteMembershipRows id
  insertMemoryContexts id contextIds principal compatibilityScope audit now preserved
  setMetadataScope id compatibilityScope now
  let _ ← updateMemory id fun row =>
    { row with provenance := row.provenance.withConversation compatibilityScope }

/-- Outcome of an authorization-checked write. -/
inductive WriteOutcome where
  | applied
  | notFound
  | denied
deriving DecidableEq, Repr

/-- `replace_memory_contexts_conn`. -/
def replaceMemoryContexts (id : MemoryId) (contextIds : List ContextId) (principal : String)
    (audit : ContextAuditDraft) (now : Instant) : StoreM WriteOutcome := do
  validateAuditActor audit principal
  require (decide contextIds.Nodup) (.conflict "memory context memberships must be unique")
  match ← fetchMemoryById id with
  | none => return .notFound
  | some memory =>
      if memory.hasWriteAccess principal then
        let preserved ← reads fun db => db.membershipIds id
        requireUsableContexts contextIds preserved principal
        deleteMembershipRows id
        insertMembershipRows id contextIds now
        let primaryKey ← primaryContextKey contextIds
        setMetadataScope id primaryKey now
        let _ ← updateMemory id fun row =>
          { row with
            provenance := row.provenance.withConversation primaryKey
            recordRevision := row.recordRevision + 1 }
        insertContextAudit audit none (some id) now
        return .applied
      else
        return .denied

end LocalHold
