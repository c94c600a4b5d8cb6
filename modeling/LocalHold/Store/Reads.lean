import LocalHold.Store.ScopeCache

/-!
# Reading one memory

`get` returns a memory as its caller may see it; `get_memory_contexts` returns
the memberships whose contexts the caller may see.
-/

namespace LocalHold

open Relational

/-! ## The memory -/

/-- Whether a memory has expired. -/
def Memory.expiredAt (memory : Memory) (now : Instant) : Bool :=
  memory.expiresAt.any fun expiry => decide (expiry ≤ now)

/-- The entities of a memory. -/
def Db.entitiesOf (db : Db) (id : MemoryId) : List Entity :=
  (db.entities.select fun row => decide (row.memoryId = id)).map (·.entity)

/-- `get`: a memory as a caller may see it. -/
def Db.getMemory (db : Db) (id : MemoryId) (caller : Option String) (now : Instant) :
    Option Memory :=
  match db.memories.find? id with
  | none => none
  | some row =>
      if row.toMemory.expiredAt now then none
      else { row.toMemory with entities := db.entitiesOf id }.applyAccessPolicy caller

/-- `Memory::optimistic_revision`. -/
def Memory.optimisticRevision (memory : Memory) : Option Int :=
  if memory.wasRedacted then none else some memory.recordRevision

/-! ## Its memberships -/

/-- A membership with its context. -/
structure MemoryContext where
  context : ContextDefinition
  ordinal : Nat

/-- The memberships of a memory by their ordinals. -/
def Db.listedMemberships (db : Db) (id : MemoryId) : List MembershipRow :=
  orderBy (fun first second => decide (first.ordinal ≤ second.ordinal)) (db.membershipsOf id)

/-- The context of a membership, where the principal can see it. -/
def Db.visibleMembership (db : Db) (principal : String) (row : MembershipRow) :
    Option MemoryContext :=
  (db.contexts.find? row.contextId).bind fun stored =>
    if db.contextVisible stored.context principal then some ⟨stored.context, row.ordinal⟩ else none

/-- The memberships of a memory whose contexts the principal can see. -/
def Db.visibleMemberships (db : Db) (id : MemoryId) (principal : String) : List MemoryContext :=
  (db.listedMemberships id).filterMap (db.visibleMembership principal)

/-- The error of a memory that is absent or hidden. -/
def memoryNotFound (id : MemoryId) : StoreError :=
  .notFound ("memory not found: " ++ id.display)

/-- `get_memory_contexts`. -/
def Db.getMemoryContexts (db : Db) (id : MemoryId) (principal : String) (now : Instant) :
    Except StoreError (List MemoryContext) :=
  match db.memories.find? id with
  | none => .error (memoryNotFound id)
  | some row =>
      if row.toMemory.expiredAt now || row.toMemory.checkAccessLevel (some principal) == .denied then
        .error (memoryNotFound id)
      else .ok (db.visibleMemberships id principal)

/-- `count_memory_contexts_for_write`. -/
def Db.countMemoryContextsForWrite (db : Db) (id : MemoryId) (principal : String) : Option Nat :=
  match db.memories.find? id with
  | none => none
  | some row =>
      if row.toMemory.hasWriteAccess principal then some (db.membershipsOf id).length else none

end LocalHold
