import LocalHold.Text
import Mathlib.Data.Rat.Defs
import Mathlib.Algebra.Order.Ring.Unbundled.Rat

/-!
# Memories and their parts

The domain records of `types.rs`.  A memory combines the row of the `memories`
table with the entities of its junction table; metadata and context memberships
are separate records.  Scores are rationals in the unit interval, with the
bounds carried by the value.
-/

namespace LocalHold

/-- The kind of knowledge a memory captures. -/
inductive MemoryType where
  | semantic
  | episodic
  | procedural
deriving DecidableEq, Repr

/-- A typed entity attached to a memory. -/
structure Entity where
  name : String
  entityType : String
deriving DecidableEq, Repr

/-- A score clamped to the unit interval. -/
structure UnitScore where
  value : ℚ
  nonneg : 0 ≤ value
  le_one : value ≤ 1
deriving DecidableEq

/-- `Importance::DEFAULT`. -/
def defaultImportance : UnitScore :=
  ⟨⟨1, 2, by decide, by decide⟩, by decide, by decide⟩

/-- `Confidence::DEFAULT`. -/
def defaultConfidence : UnitScore :=
  ⟨⟨4, 5, by decide, by decide⟩, by decide, by decide⟩

/-- Who or what created a memory. -/
structure Provenance where
  sourceAgent : Option String
  sourceConversation : Option String
  originConversation : Option String
  sourceUser : Option String
deriving DecidableEq, Repr

/-- `Provenance::default()`. -/
def Provenance.default : Provenance :=
  ⟨none, none, none, none⟩

/-- A field that a redacted policy may keep visible. -/
inductive RedactableField where
  | content
  | tags
  | provenance
  | entities
  | importance
  | expiresAt
  | unknown (name : String)
deriving DecidableEq, Repr

/-- Who can see a memory. -/
inductive AccessPolicy where
  | publicPolicy
  | restricted (allowed : List String)
  | redacted (visibleFields : List RedactableField)
deriving DecidableEq, Repr

/-- A single memory entry as the store returns it. -/
structure Memory where
  id : MemoryId
  content : String
  tags : List String
  provenance : Provenance
  accessPolicy : AccessPolicy
  createdAt : Instant
  updatedAt : Instant
  recordRevision : Int
  expiresAt : Option Instant
  hasEmbedding : Bool
  memoryType : MemoryType
  importance : UnitScore
  confidence : UnitScore
  impressionCount : Nat
  lastImpressedAt : Option Instant
  supersededBy : Option MemoryId
  activityMass : ℚ
  lastUsedAt : Option Instant
  entities : List Entity
  wasRedacted : Bool
deriving DecidableEq

/-- A public memory of an agent as it is first stored, with default scores. -/
def Memory.plain (id : MemoryId) (agent content : String) (now : Instant) : Memory where
  id := id
  content := content
  tags := []
  provenance := { Provenance.default with sourceAgent := some agent }
  accessPolicy := .publicPolicy
  createdAt := now
  updatedAt := now
  recordRevision := 0
  expiresAt := none
  hasEmbedding := false
  memoryType := .semantic
  importance := defaultImportance
  confidence := defaultConfidence
  impressionCount := 0
  lastImpressedAt := none
  supersededBy := none
  activityMass := 0
  lastUsedAt := none
  entities := []
  wasRedacted := false

/-- Metadata attached to a memory row. -/
structure MemoryMetadata where
  memoryId : MemoryId
  scopeKey : Option String
  summary : Option String
  agentLabel : Option String
  createdByPrincipal : Option String
  qualityFlags : List String
  schemaVersion : Int
deriving DecidableEq, Repr

/-- Partial metadata changes supplied by a revise request. -/
structure MetadataPatch where
  scopeKey : Option String
  summary : Option String
  clearSummary : Bool
  agentLabel : Option String
  clearAgentLabel : Bool
deriving DecidableEq, Repr

/-- A partial update; only present fields are applied.  A present `expiresAt`
that holds `none` clears the expiry. -/
structure MemoryUpdate where
  content : Option String
  tags : Option (List String)
  accessPolicy : Option AccessPolicy
  importance : Option UnitScore
  expiresAt : Option (Option Instant)
  confidence : Option UnitScore
  sourceConversation : Option String
  entities : Option (List Entity)
deriving DecidableEq

/-- `MemoryUpdate::default()`. -/
def MemoryUpdate.default : MemoryUpdate :=
  ⟨none, none, none, none, none, none, none, none⟩

/-- `has_column_updates`: whether the update writes the memory row itself. -/
def MemoryUpdate.hasColumnUpdates (update : MemoryUpdate) : Bool :=
  update.content.isSome || update.tags.isSome || update.accessPolicy.isSome ||
    update.importance.isSome || update.expiresAt.isSome || update.confidence.isSome ||
    update.sourceConversation.isSome

/-- The authorization envelope kept after a memory is deleted. -/
structure MemoryTombstone where
  memoryId : MemoryId
  provenance : Provenance
  accessPolicy : AccessPolicy
  deletedAt : Instant
  deletedByPrincipal : Option String
deriving DecidableEq, Repr

end LocalHold
