import LocalHold.Server.LegacyResolution
import LocalHold.Store.Optimistic
import LocalHold.Store.Reads
import LocalHold.Store.ScopeWrites

/-!
# Revising under a legacy scope

`revise` with a legacy scope replaces the primary context of a memory and keeps
its other memberships.  The replacement list is computed from several reads and
written later, in a transaction of its own, so a call is a process: each advance
performs the next read or write on the store as it is then.
-/

namespace LocalHold

open Relational Transition Transition.Txn

/-! ## The call -/

/-- Why a call returns an error of the engine. -/
inductive CallFailure where
  | store (error : StoreError)
  /-- Validation of the update, or admission of its embedding. -/
  | engine (message : String)

/-- How a `revise` call ends. -/
inductive ReviseOutcome where
  | applied (contexts : List ContextDescriptor)
  | answered (error : ToolError)
  | failed (failure : CallFailure)

/-- A `revise` call whose legacy scope is resolved. -/
structure LegacyRevise where
  id : MemoryId
  principal : String
  resolution : ScopeResolution
  selection : ResolvedContextSelection
  /-- The fields of the request; the conversation is set from the scope. -/
  changes : MemoryUpdate
  summary : Option String
  agentLabel : Option String
  /-- `begin_embed_admission` and `prepare_update` of the engine. -/
  prepare : MemoryUpdate → Except String MemoryUpdate
  handle : StoreHandle

namespace LegacyRevise

variable (call : LegacyRevise)

/-- `canonicalize_legacy_scope_resolution`: the key of the selected context. -/
def scope : String :=
  (call.selection.resolution.direct.head?.map (·.key)).getD call.resolution.scope

/-- The update that is handed to the engine. -/
def update : MemoryUpdate :=
  { call.changes with expiresAt := none, sourceConversation := some call.scope }

/-- The metadata patch of the call. -/
def patch : MetadataPatch :=
  ⟨some call.scope, call.summary, false, call.agentLabel, false⟩

/-- The audit of the update. -/
def audit (now : Instant) : AuditDraft :=
  ⟨.update, some call.principal, now, some (.object
    [("metadata", .bool true), ("contexts_replaced", .bool true), ("interactive", .bool true)])⟩

/-- The audit of the replaced memberships. -/
def contextAudit (contexts : List ContextId) : ContextAuditDraft :=
  ⟨call.principal, "memory_contexts_replaced", none, some call.id, some (.object
    [("context_ids", .array (contexts.map fun id => .string id.display))])⟩

/-- The answer where the memory is absent. -/
def notFound : ToolError :=
  toolError .notFound "id" ("memory not found: " ++ call.id.display)
    "Check the memory ID or use recall to find a visible memory." false

/-- The answer where the principal may not write. -/
def denied : ToolError :=
  toolError .accessDenied "id"
    ("access denied: principal cannot modify memory " ++ call.id.display)
    "Use a trusted principal that owns or is allowed to modify this memory." false

/-- The answer where a membership is hidden from the principal. -/
def hiddenMembership : ToolError :=
  toolError .conflict "scope"
    "legacy scope cannot safely preserve every existing context membership"
    ("Restore visibility to every attached context, or use an explicit context envelope after " ++
      "confirming the complete replacement set.") false

/-- The answer where the scope selected no context. -/
def noDirectContext : ToolError :=
  toolError .contextRequired "scope" "legacy scope did not resolve to a direct context"
    "Use context_resolve, then retry revise with an explicit context reference." false

end LegacyRevise

/-- The complete replacement set: the selected context, then the memberships
behind the primary one. -/
def replacementContexts (selected : ContextId) (existing : List MemoryContext) : List ContextId :=
  selected :: ((existing.filter fun membership => membership.ordinal != 0).map
    (·.context.id)).filter fun id => id != selected

/-- The envelope that names contexts by their identifiers. -/
def completeEnvelope (contexts : List ContextId) : ContextEnvelope :=
  { ContextEnvelope.default with refs := contexts.map ContextReference.byId }

/-- Where a `revise` call stands. -/
inductive RevisePhase where
  | loading
  | listing (expected : Int)
  | counting (expected : Int) (existing : List MemoryContext)
  | opening (expected : Int) (contexts : List ContextId)
  | looking (expected : Int) (contexts : List ContextId) (policies : ContextPolicyState)
      (state : SelectionState) (remaining : List ContextId)
  | writing (expected : Int) (complete : ResolvedContextSelection)
  | confirming
  /-- An error exit, before the rollback of a created context. -/
  | cleaning (outcome : ReviseOutcome)
  | ended (outcome : ReviseOutcome)

variable [Host] [IdentityHost]

namespace LegacyRevise

variable (call : LegacyRevise)

omit [IdentityHost] in
/-- The transaction of the call. -/
def write (expected : Int) (prepared : MemoryUpdate) (contexts : List ContextId) (now : Instant) :
    StoreM AuthorizedUpdateOutcome :=
  updateAuthorizedIfUnmodified call.handle.dimensions call.handle.activeProfile call.id expected
    prepared (some call.patch) (some contexts) none call.principal (call.audit now)
    (some (call.contextAudit contexts)) now

omit [IdentityHost] in
/-- The optimistic update of the call. -/
def advanceWrite (db : Db) (now : Instant) (expected : Int) (complete : ResolvedContextSelection) :
    RevisePhase × Db :=
  match call.prepare call.update with
  | .error message => (.cleaning (.failed (.engine message)), db)
  | .ok prepared =>
      match call.write expected prepared complete.directIds now db with
      | .error error => (.cleaning (.failed (.store error)), db)
      | .ok (result, next) =>
          match result.outcome with
          | .applied => (.confirming, next)
          | .notFound => (.cleaning (.answered call.notFound), next)
          | .denied => (.cleaning (.answered call.denied), next)

omit [Host] [IdentityHost] in
/-- The rollback before an error is returned. -/
def advanceCleaning (db : Db) (outcome : ReviseOutcome) : RevisePhase × Db :=
  match call.selection.createdLegacyContext with
  | none => (.ended outcome, db)
  | some created =>
      match rollbackUnreferencedLegacyContext created call.principal db with
      | .ok (_, next) => (.ended outcome, next)
      | .error error => (.ended (.failed (.store error)), db)

/-- One step of `resolve_context_selection` on the replacement set. -/
def advanceLooking (db : Db) (expected : Int) (contexts : List ContextId)
    (policies : ContextPolicyState) (state : SelectionState) : List ContextId → RevisePhase
  | id :: rest =>
      match resolveReference db call.principal state (ContextReference.byId id) with
      | .error error => .cleaning (.answered error)
      | .ok next => .looking expected contexts policies next rest
  | [] =>
      match finishSelection db call.principal policies (completeEnvelope contexts) none true
        { state with candidates := rankCandidates state.candidates } with
      | .error error => .cleaning (.answered error)
      | .ok complete => .writing expected complete

/-- The next step of a call. -/
def advance (db : Db) (now : Instant) : RevisePhase → RevisePhase × Db
  | .loading =>
      match db.getMemory call.id (some call.principal) now with
      | none => (.cleaning (.answered call.notFound), db)
      | some memory =>
          match memory.optimisticRevision with
          | none =>
              (.cleaning (.failed (.store (.conflict
                ("memory " ++ call.id.display ++ " has no optimistic revision")))), db)
          | some expected => (.listing expected, db)
  | .listing expected =>
      match db.getMemoryContexts call.id call.principal now with
      | .error error => (.cleaning (.failed (.store error)), db)
      | .ok existing => (.counting expected existing, db)
  | .counting expected existing =>
      if db.countMemoryContextsForWrite call.id call.principal = some existing.length then
        match call.selection.directIds.head? with
        | none => (.cleaning (.answered noDirectContext), db)
        | some selected => (.opening expected (replacementContexts selected existing), db)
      else (.cleaning (.answered hiddenMembership), db)
  | .opening expected contexts =>
      match validateResolutionRequest (completeEnvelope contexts) none with
      | .error error => (.cleaning (.answered error), db)
      | .ok _ =>
          (.looking expected contexts (db.contextPolicyState call.principal) SelectionState.start
            contexts, db)
  | .looking expected contexts policies state remaining =>
      (call.advanceLooking db expected contexts policies state remaining, db)
  | .writing expected complete => call.advanceWrite db now expected complete
  | .confirming =>
      match db.getMemoryContexts call.id call.principal now with
      | .error error => (.ended (.failed (.store error)), db)
      | .ok contexts => (.ended (.applied (contexts.map (·.context.descriptor))), db)
  | .cleaning outcome => call.advanceCleaning db outcome
  | .ended outcome => (.ended outcome, db)

end LegacyRevise

/-! ## Calls of many clients -/

/-- The store with the `revise` calls under way. -/
structure ReviseWorld where
  db : Db
  calls : List (LegacyRevise × RevisePhase)

/-- What happens next: a store call of any client, a legacy revise that has just
resolved its scope, or the next step of one. -/
inductive ReviseEvent where
  | store (call : StoreCall)
  | start (call : LegacyRevise)
  | advance (index : Nat) (now : Instant)

/-- One step of the clients. -/
def reviseStep (world : ReviseWorld) : ReviseEvent → Option ReviseWorld
  | .store call => (storeStep world.db call).map fun next => { world with db := next }
  | .start call => some { world with calls := world.calls ++ [(call, .loading)] }
  | .advance index now =>
      world.calls[index]?.map fun entry =>
        let advanced := entry.1.advance world.db now entry.2
        { db := advanced.2, calls := world.calls.set index (entry.1, advanced.1) }

/-- A store without `revise` calls under way. -/
def ReviseWorld.opening (db : Db) : ReviseWorld :=
  ⟨db, []⟩

end LocalHold
