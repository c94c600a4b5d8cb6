import LocalHold.Store.DeletionRules

/-!
# Record revisions

The view of a memory that its record revision protects, and the relations that
bound what a statement may do to such views.  A statement may touch the fields
of one memory before or after the revision of that memory advances; a command
as a whole must not change fields without an advance.
-/

namespace LocalHold

open Relational Transition Transition.Txn

/-! ## Views -/

/-- The columns of a memory row that a record revision covers. -/
structure RevisedColumns where
  content : String
  tags : List String
  provenance : Provenance
  accessPolicy : AccessPolicy
  importance : UnitScore
  confidence : UnitScore
  expiresAt : Option Instant
  supersededBy : Option MemoryId
deriving DecidableEq

/-- The covered columns of a row. -/
def MemoryRow.revisedColumns (row : MemoryRow) : RevisedColumns where
  content := row.content
  tags := row.tags
  provenance := row.provenance
  accessPolicy := row.accessPolicy
  importance := row.importance
  confidence := row.confidence
  expiresAt := row.expiresAt
  supersededBy := row.supersededBy

/-- The rows of other tables that belong to a memory. -/
structure Attachments where
  entities : List EntityRow
  metadata : Option MetadataRow
  memberships : List MembershipRow
deriving DecidableEq

/-- The attachments of a memory. -/
def Db.attachments (db : Db) (id : MemoryId) : Attachments where
  entities := db.entities.select fun row => decide (row.memoryId = id)
  metadata := db.metadata.find? id
  memberships := db.memoryContexts.select fun row => decide (row.memoryId = id)

/-- A memory as its record revision sees it. -/
structure MemoryView where
  recordRevision : Int
  columns : RevisedColumns
  attachments : Attachments
deriving DecidableEq

/-- The view of a stored memory. -/
def Db.view (db : Db) (id : MemoryId) : Option MemoryView :=
  (db.memories.find? id).map fun row =>
    ⟨row.recordRevision, row.revisedColumns, db.attachments id⟩

/-- Whether two views carry the same fields, revisions aside. -/
def MemoryView.SameFields (old new : MemoryView) : Prop :=
  old.columns = new.columns ∧ old.attachments = new.attachments

theorem Db.view_eq_none_iff {db : Db} {id : MemoryId} :
    db.view id = none ↔ db.memories.find? id = none := by
  simp [Db.view]

/-! ## Relations between views -/

/-- The revision does not fall. -/
def Ordered (old new : MemoryView) : Prop :=
  old.recordRevision ≤ new.recordRevision

/-- The revision rises. -/
def Advanced (old new : MemoryView) : Prop :=
  old.recordRevision < new.recordRevision

/-- The revision rises when a field changes, and never falls. -/
def Tracked (old new : MemoryView) : Prop :=
  old.recordRevision ≤ new.recordRevision ∧
    (old.SameFields new ∨ old.recordRevision < new.recordRevision)

theorem Tracked.refl (view : MemoryView) : Tracked view view :=
  ⟨le_refl _, Or.inl ⟨rfl, rfl⟩⟩

theorem Tracked.trans {first second third : MemoryView} (early : Tracked first second)
    (late : Tracked second third) : Tracked first third := by
  refine ⟨le_trans early.1 late.1, ?_⟩
  rcases early.2 with sameEarly | advancedEarly
  · rcases late.2 with sameLate | advancedLate
    · exact Or.inl ⟨sameEarly.1.trans sameLate.1, sameEarly.2.trans sameLate.2⟩
    · exact Or.inr (lt_of_le_of_lt early.1 advancedLate)
  · exact Or.inr (lt_of_lt_of_le advancedEarly late.1)

theorem Ordered.trans {first second third : MemoryView} (early : Ordered first second)
    (late : Ordered second third) : Ordered first third :=
  le_trans (b := second.recordRevision) early late

theorem Advanced.trans_ordered {first second third : MemoryView} (early : Advanced first second)
    (late : Ordered second third) : Advanced first third :=
  lt_of_lt_of_le (b := second.recordRevision) early late

theorem Ordered.trans_advanced {first second third : MemoryView} (early : Ordered first second)
    (late : Advanced second third) : Advanced first third :=
  lt_of_le_of_lt (b := second.recordRevision) early late

theorem Advanced.tracked {old new : MemoryView} (advanced : Advanced old new) :
    Tracked old new :=
  ⟨le_of_lt advanced, Or.inr advanced⟩

/-- How a memory may fare between two states: a memory that stays is related by
`allowed`, one that disappears leaves a tombstone, and one that appears had
none. -/
structure Related (allowed : MemoryView → MemoryView → Prop) (id : MemoryId)
    (before after : Db) : Prop where
  kept : ∀ old new, before.view id = some old → after.view id = some new → allowed old new
  gone : before.view id ≠ none → after.view id = none → after.tombstones.contains id = true
  fresh : before.view id = none → after.view id ≠ none → before.tombstones.contains id = false
  tombstone : before.tombstones.contains id = true → after.tombstones.contains id = true

namespace Related

variable {id : MemoryId} {before middle after : Db}

theorem mono {strong weak : MemoryView → MemoryView → Prop} (related : Related strong id before after)
    (weaken : ∀ old new, strong old new → weak old new) : Related weak id before after where
  kept old new oldView newView := weaken old new (related.kept old new oldView newView)
  gone := related.gone
  fresh := related.fresh
  tombstone := related.tombstone

theorem trans {early late whole : MemoryView → MemoryView → Prop}
    (earlyRelated : Related early id before middle) (lateRelated : Related late id middle after)
    (compose : ∀ first second third, early first second → late second third →
      whole first third) :
    Related whole id before after where
  kept old new oldView newView := by
    cases middleView : middle.view id with
    | none =>
        have tombstoned := earlyRelated.gone (by simp [oldView]) middleView
        have untouched := lateRelated.fresh middleView (by simp [newView])
        rw [tombstoned] at untouched
        cases untouched
    | some kept =>
        exact compose old kept new (earlyRelated.kept old kept oldView middleView)
          (lateRelated.kept kept new middleView newView)
  gone present absent := by
    cases middleView : middle.view id with
    | none => exact lateRelated.tombstone (earlyRelated.gone present middleView)
    | some kept => exact lateRelated.gone (by simp [middleView]) absent
  fresh absent present := by
    cases middleView : middle.view id with
    | none =>
        have untouched := lateRelated.fresh middleView present
        by_contra tombstoned
        rw [earlyRelated.tombstone (by simpa using tombstoned)] at untouched
        cases untouched
    | some kept => exact earlyRelated.fresh absent (by simp [middleView])
  tombstone tombstoned := lateRelated.tombstone (earlyRelated.tombstone tombstoned)

/-- Equal views and tombstones relate by any reflexive relation. -/
theorem of_view_eq {allowed : MemoryView → MemoryView → Prop} (refl : ∀ view, allowed view view)
    (viewEq : after.view id = before.view id)
    (tombstoneEq : after.tombstones.contains id = before.tombstones.contains id) :
    Related allowed id before after where
  kept old new oldView newView := by
    rw [viewEq, oldView] at newView
    cases newView
    exact refl old
  gone present absent := absurd (viewEq ▸ absent) present
  fresh absent present := absurd (viewEq.trans absent) present
  tombstone tombstoned := by rw [tombstoneEq]; exact tombstoned

end Related

/-- No memory changes a field without an advance of its revision. -/
def Sound (before after : Db) : Prop :=
  ∀ id, Related Tracked id before after

/-- One memory fares by `allowed`, every other one soundly. -/
def Touches (allowed : MemoryView → MemoryView → Prop) (id : MemoryId) (before after : Db) :
    Prop :=
  Related allowed id before after ∧ ∀ other, other ≠ id → Related Tracked other before after

instance : Std.Refl Sound :=
  ⟨fun _ _ => Related.of_view_eq Tracked.refl rfl rfl⟩

instance : IsTrans Db Sound :=
  ⟨fun _ _ _ early late id =>
    (early id).trans (late id) fun _ _ _ => Tracked.trans⟩

namespace Touches

variable {id : MemoryId} {before middle after : Db}

theorem sound {allowed : MemoryView → MemoryView → Prop} (touches : Touches allowed id before after)
    (strengthen : ∀ old new, allowed old new → Tracked old new) : Sound before after := by
  intro other
  by_cases equal : other = id
  · subst equal
    exact touches.1.mono strengthen
  · exact touches.2 other equal

theorem trans {early late whole : MemoryView → MemoryView → Prop}
    (earlyTouches : Touches early id before middle) (lateTouches : Touches late id middle after)
    (compose : ∀ first second third, early first second → late second third →
      whole first third) :
    Touches whole id before after := by
  constructor
  · exact earlyTouches.1.trans lateTouches.1 compose
  · intro other different
    exact (earlyTouches.2 other different).trans (lateTouches.2 other different)
      fun _ _ _ => Tracked.trans

end Touches

theorem Sound.touches {before after : Db} (sound : Sound before after) (id : MemoryId) :
    Touches Ordered id before after :=
  ⟨(sound id).mono fun _ _ tracked => tracked.1, fun other _ => sound other⟩

instance (id : MemoryId) : Std.Refl (Touches Ordered id) :=
  ⟨fun state => Sound.touches (Std.Refl.refl state) id⟩

instance (id : MemoryId) : IsTrans Db (Touches Ordered id) :=
  ⟨fun _ _ _ early late => early.trans late fun _ _ _ => Ordered.trans⟩

/-- A state with the same memory tables is soundly related. -/
theorem Sound.of_memorySide {before after : Db} (same : after.memorySide = before.memorySide) :
    Sound before after := by
  simp only [Db.memorySide, Prod.mk.injEq] at same
  obtain ⟨memories, entities, metadata, memberships, tombstones⟩ := same
  intro id
  apply Related.of_view_eq Tracked.refl
  · simp only [Db.view, Db.attachments, memories, entities, metadata, memberships]
  · rw [tombstones]

/-! ## Rules for transactions -/

section Rules

variable {α β : Type} {id : MemoryId}

theorem withinSound_of_tracked {body : StoreM α} (inner : Within (Touches Tracked id) body) :
    Within Sound body :=
  inner.mono fun _ _ touches => touches.sound fun _ _ tracked => tracked

theorem withinSound_of_advanced {body : StoreM α} (inner : Within (Touches Advanced id) body) :
    Within Sound body :=
  inner.mono fun _ _ touches => touches.sound fun _ _ advanced => advanced.tracked

theorem withinTouches_of_sound {body : StoreM α} (inner : Within Sound body) :
    Within (Touches Ordered id) body :=
  inner.mono fun _ _ sound => sound.touches id

theorem withinAdvanced_bind_left {first : StoreM α} {rest : α → StoreM β}
    (firstWithin : Within (Touches Advanced id) first)
    (restWithin : ∀ value, Within (Touches Ordered id) (rest value)) :
    Within (Touches Advanced id) (first >>= rest) :=
  firstWithin.comp restWithin fun _ _ _ early late =>
    early.trans late fun _ _ _ => Advanced.trans_ordered

theorem withinAdvanced_bind_right {first : StoreM α} {rest : α → StoreM β}
    (firstWithin : Within (Touches Ordered id) first)
    (restWithin : ∀ value, Within (Touches Advanced id) (rest value)) :
    Within (Touches Advanced id) (first >>= rest) :=
  firstWithin.comp restWithin fun _ _ _ early late =>
    early.trans late fun _ _ _ => Ordered.trans_advanced

theorem withinSound_of_leavesMemories {body : StoreM α} (inner : LeavesMemories body) :
    Within Sound body :=
  inner.mono fun state next same => by
    apply Sound.of_memorySide
    simp only [Keeps, Db.memoryTables, Prod.mk.injEq] at same
    obtain ⟨memories, entities, metadata, memberships, tombstones, _⟩ := same
    simp only [Db.memorySide, memories, entities, metadata, memberships, tombstones]

theorem withinSound_writes {change : Db → Db}
    (same : ∀ db, (change db).memorySide = db.memorySide) :
    Within Sound (writes change : StoreM Unit) :=
  Within.writes fun db => Sound.of_memorySide (same db)

end Rules

end LocalHold
