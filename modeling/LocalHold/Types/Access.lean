import LocalHold.Types.Memory

/-!
# Access levels, redaction and the wire view

The access rules of `types.rs`.  Reading is decided by the memory's own
provenance and policy; a redacted reader receives a view whose hidden fields
are replaced by fixed values.  Writing is narrower than reading.
-/

namespace LocalHold

/-- The result of evaluating an access policy against a caller. -/
inductive AccessLevel where
  | full
  | redacted
  | denied
deriving DecidableEq, Repr

/-- A blank caller counts as unauthenticated. -/
def effectiveCaller (caller : Option String) : Option String :=
  caller.filter fun name => !isBlank name

/-- The read rule shared by memories and tombstones. -/
def accessLevel (provenance : Provenance) (policy : AccessPolicy) (caller : Option String) :
    AccessLevel :=
  match policy with
  | .publicPolicy => .full
  | .restricted allowed =>
      match effectiveCaller caller with
      | none => .denied
      | some name =>
          if provenance.sourceAgent = some name ∨ name ∈ allowed then .full else .denied
  | .redacted _ =>
      match effectiveCaller caller with
      | none => .denied
      | some name => if provenance.sourceAgent = some name then .full else .redacted

/-- `write_access_allowed`: the canonical write policy. -/
def writeAccessAllowed (provenance : Provenance) (policy : AccessPolicy) (caller : String) :
    Bool :=
  let isOwner := provenance.sourceAgent == some caller
  match policy with
  | .publicPolicy => provenance.sourceAgent.isNone || isOwner
  | .redacted _ => isOwner
  | .restricted allowed => isOwner || allowed.contains caller

/-- The fields a redacted view keeps under a policy. -/
def AccessPolicy.visibleFields : AccessPolicy → List RedactableField
  | .redacted fields => fields
  | .publicPolicy => []
  | .restricted _ => []

namespace Memory

/-- `Memory::check_access_level`. -/
def checkAccessLevel (memory : Memory) (caller : Option String) : AccessLevel :=
  accessLevel memory.provenance memory.accessPolicy caller

/-- `Memory::has_write_access`. -/
def hasWriteAccess (memory : Memory) (caller : String) : Bool :=
  writeAccessAllowed memory.provenance memory.accessPolicy caller

/-- `Memory::field_visible_in_view`. -/
def fieldVisibleInView (memory : Memory) (field : RedactableField) : Bool :=
  if memory.wasRedacted then
    match memory.accessPolicy with
    | .redacted fields => fields.contains field
    | .publicPolicy => true
    | .restricted _ => true
  else
    true

/-- `Memory::content_searchable_by`. -/
def contentSearchableBy (memory : Memory) (caller : Option String) : Bool :=
  match memory.checkAccessLevel caller with
  | .full => true
  | .redacted =>
      match memory.accessPolicy with
      | .redacted fields => fields.contains .content
      | .publicPolicy => false
      | .restricted _ => false
  | .denied => false

/-- `Memory::redacted`: hide every redactable field the policy does not keep
visible. -/
def redacted (memory : Memory) : Memory :=
  let hasField := fun field => memory.accessPolicy.visibleFields.contains field
  { memory with
    content := if hasField .content then memory.content else "[redacted]"
    tags := if hasField .tags then memory.tags else []
    provenance := if hasField .provenance then memory.provenance else Provenance.default
    expiresAt := if hasField .expiresAt then memory.expiresAt else none
    entities := if hasField .entities then memory.entities else []
    recordRevision := 0
    impressionCount := 0
    lastImpressedAt := none
    wasRedacted := true }

/-- `Memory::sanitize_for_wire`: zero the scoring fields of a redacted view. -/
def sanitizeForWire (memory : Memory) : Memory :=
  if memory.wasRedacted then
    { memory with
      updatedAt := memory.createdAt
      confidence := defaultConfidence
      supersededBy := none
      activityMass := 0
      lastUsedAt := none }
  else
    memory

/-- `Memory::apply_access_policy`. -/
def applyAccessPolicy (memory : Memory) (caller : Option String) : Option Memory :=
  match memory.checkAccessLevel caller with
  | .full => some memory
  | .redacted => some memory.redacted
  | .denied => none

end Memory

/-- `MemoryTombstone::check_access_level`. -/
def MemoryTombstone.checkAccessLevel (tombstone : MemoryTombstone) (caller : Option String) :
    AccessLevel :=
  accessLevel tombstone.provenance tombstone.accessPolicy caller

/-! ## Read rule -/

/-- Only a redacted policy yields a redacted level. -/
theorem accessLevel_redacted_policy {provenance : Provenance} {policy : AccessPolicy}
    {caller : Option String} (level : accessLevel provenance policy caller = .redacted) :
    ∃ fields, policy = .redacted fields := by
  cases policy with
  | publicPolicy => simp [accessLevel] at level
  | restricted allowed =>
      simp only [accessLevel] at level
      split at level
      · cases level
      · split at level <;> cases level
  | redacted fields => exact ⟨fields, rfl⟩

end LocalHold
