import LocalHold.Store.Crud
import LocalHold.Store.WhereClause

/-!
# Which memories a context selection applies to

The rule is written twice in SQL: among the conditions of a filter, and in the
query that lists candidates for consolidation.  Both say that a memory has an
active context and that each kind among its active contexts is represented in
the selection.
-/

namespace LocalHold

open Relational

/-! ## The rule -/

section Rule

universe u v w

variable {ι : Type u} {κ : Type v} {ν : Type w}

/-- There is an active item, and unless the selection is empty, every kind of an
active item has an active item that is selected by its name. -/
def Applicable (active : Set ι) (kind : ι → κ) (name : ι → ν) (selected : Set ν) : Prop :=
  active.Nonempty ∧
    (selected.Nonempty → ∀ k, (∃ item ∈ active, kind item = k) →
      ∃ item ∈ active, kind item = k ∧ name item ∈ selected)

/-- Selecting more keeps what a selection that is not empty applies to. -/
theorem Applicable.mono {active : Set ι} {kind : ι → κ} {name : ι → ν} {selected wider : Set ν}
    (applies : Applicable active kind name selected) (some : selected.Nonempty)
    (more : selected ⊆ wider) : Applicable active kind name wider := by
  refine ⟨applies.1, fun _ k present => ?_⟩
  obtain ⟨item, isActive, ofKind, named⟩ := applies.2 some k present
  exact ⟨item, isActive, ofKind, more named⟩

end Rule

/-! ## The listing of candidates -/

/-- The join of the memberships of a memory with their contexts. -/
def Db.membershipContexts (db : Db) (id : MemoryId) : List (MembershipRow × ContextRow) :=
  (Table.join db.memoryContexts.rows db.contexts.rows MembershipRow.contextId
    fun row => row.context.id).filter fun pair => decide (pair.1.memoryId = id)

/-- A membership whose context is active. -/
def activeMembership (pair : MembershipRow × ContextRow) : Bool :=
  decide (pair.2.context.lifecycle = .active)

/-- The governed membership that `list_memories_with_embeddings` requires. -/
def Db.listsGoverned (db : Db) (id : MemoryId) : Bool :=
  (db.membershipContexts id).any activeMembership

/-- `NOT EXISTS` an attached context without a compatible one in
`list_memories_with_embeddings`. -/
def Db.listsCompatible (db : Db) (contextIds : List ContextId) (id : MemoryId) : Bool :=
  !(db.membershipContexts id).any fun attached =>
    activeMembership attached &&
      !(db.membershipContexts id).any fun compatible =>
        decide (compatible.2.context.kind = attached.2.context.kind) &&
          activeMembership compatible && contextIds.contains compatible.1.contextId

/-- The memories with a legacy membership in `list_memories_with_embeddings`. -/
def Db.legacyMemberships (db : Db) (contextIds : List ContextId) : List MemoryId :=
  ((Table.join db.memoryContexts.rows db.contexts.rows MembershipRow.contextId
    fun row => row.context.id).filter fun pair =>
      contextIds.contains pair.1.contextId && activeMembership pair).map (·.1.memoryId)

/-- The conditions of `list_memories_with_embeddings` on memberships. -/
def Db.listingContexts (db : Db) (contextIds legacyContextIdsAny : Option (List ContextId))
    (id : MemoryId) : Bool :=
  (contextIds.all fun contextIds =>
    db.listsGoverned id && (contextIds.isEmpty || db.listsCompatible contextIds id)) &&
    legacyContextIdsAny.all fun contextIds =>
      contextIds.isEmpty || (db.legacyMemberships contextIds).contains id

/-! ## What the two conditions accept -/

section Accepts

variable {db : Db} {id : MemoryId}

/-- The active contexts of a memory. -/
def Db.activeContexts (db : Db) (id : MemoryId) : Set ContextDefinition :=
  {context | context.lifecycle = .active ∧
    ∃ membership ∈ db.memoryContexts, membership.memoryId = id ∧
      ∃ stored ∈ db.contexts, stored.context = context ∧ context.id = membership.contextId}

theorem mem_membershipContexts_iff {pair : MembershipRow × ContextRow} :
    pair ∈ db.membershipContexts id ↔
      pair.1 ∈ db.memoryContexts ∧ pair.1.memoryId = id ∧ pair.2 ∈ db.contexts ∧
        pair.2.context.id = pair.1.contextId := by
  rw [Db.membershipContexts, List.mem_filter, Table.mem_join_iff, decide_eq_true_iff]
  constructor
  · rintro ⟨⟨membership, stored, named⟩, ofMemory⟩
    exact ⟨membership, ofMemory, stored, named⟩
  · rintro ⟨membership, ofMemory, stored, named⟩
    exact ⟨⟨membership, stored, named⟩, ofMemory⟩

/-- The active memberships in the join are the active contexts. -/
theorem exists_activeMembership_iff (holds : ContextDefinition → Prop) :
    (∃ pair ∈ db.membershipContexts id, activeMembership pair = true ∧ holds pair.2.context) ↔
      ∃ context ∈ db.activeContexts id, holds context := by
  constructor
  · rintro ⟨⟨membership, stored⟩, pairMem, isActive, held⟩
    obtain ⟨membershipMem, ofMemory, storedMem, named⟩ := mem_membershipContexts_iff.mp pairMem
    exact ⟨stored.context, ⟨of_decide_eq_true isActive, membership, membershipMem, ofMemory, stored,
      storedMem, rfl, named⟩, held⟩
  · rintro ⟨context, ⟨isActive, membership, membershipMem, ofMemory, stored, storedMem, rfl,
      named⟩, held⟩
    exact ⟨(membership, stored), mem_membershipContexts_iff.mpr
      ⟨membershipMem, ofMemory, storedMem, named⟩, decide_eq_true isActive, held⟩

/-- The active contexts that the filter sees are those of the join. -/
theorem exists_activeAttached_iff {row : MemoryRow} (holds : ContextKind → ContextId → Prop) :
    (∃ attached ∈ (db.stored row).contexts,
        attached.lifecycle = .active ∧ holds attached.kind attached.id) ↔
      ∃ context ∈ db.activeContexts row.id, holds context.kind context.id := by
  simp only [Db.stored, List.mem_filterMap, Option.map_eq_some_iff]
  constructor
  · rintro ⟨attached, ⟨membership, membershipMem, stored, found, rfl⟩, isActive, held⟩
    obtain ⟨isMembership, ofMemory⟩ := Table.mem_select_iff.mp membershipMem
    have storedId : stored.context.id = membership.contextId :=
      (Table.find?_eq_some_iff.mp found).2
    exact ⟨stored.context, ⟨isActive, membership, isMembership, of_decide_eq_true ofMemory, stored,
      Table.mem_of_find? found, rfl, storedId⟩, held⟩
  · rintro ⟨context, ⟨isActive, membership, membershipMem, ofMemory, stored, storedMem, rfl,
      named⟩, held⟩
    exact ⟨_, ⟨membership, Table.mem_select_iff.mpr ⟨membershipMem, decide_eq_true ofMemory⟩,
      stored, Table.find?_eq_some_iff.mpr ⟨storedMem, named⟩, rfl⟩, isActive, held⟩

/-- Every active context has a selected one of its kind. -/
def Db.kindsSelected (db : Db) (contextIds : List ContextId) (id : MemoryId) : Prop :=
  ∀ context ∈ db.activeContexts id, ∃ other ∈ db.activeContexts id,
    other.kind = context.kind ∧ other.id ∈ contextIds

theorem applicable_iff (contextIds : List ContextId) :
    Applicable (db.activeContexts id) ContextDefinition.kind ContextDefinition.id
        {contextId | contextId ∈ contextIds} ↔
      (db.activeContexts id).Nonempty ∧ (contextIds = [] ∨ db.kindsSelected contextIds id) := by
  refine and_congr_right fun _ => ?_
  constructor
  · intro selects
    rcases List.eq_nil_or_concat contextIds with empty | ⟨rest, last, whole⟩
    · exact Or.inl empty
    · right
      intro context isActive
      have some : {contextId | contextId ∈ contextIds}.Nonempty := ⟨last, by simp [whole]⟩
      exact selects some context.kind ⟨context, isActive, rfl⟩
  · rintro (rfl | selects) ⟨contextId, named⟩ k ⟨context, isActive, rfl⟩
    · cases named
    · exact selects context isActive

theorem listsGoverned_iff : db.listsGoverned id = true ↔ (db.activeContexts id).Nonempty := by
  have active := @exists_activeMembership_iff db id fun _ => True
  simpa only [Db.listsGoverned, List.any_eq_true, and_true, Set.Nonempty] using active

theorem kindsSelected_of_uncovered (contextIds : List ContextId) :
    (¬ ∃ context ∈ db.activeContexts id, ¬ ∃ other ∈ db.activeContexts id,
        other.kind = context.kind ∧ other.id ∈ contextIds) ↔ db.kindsSelected contextIds id := by
  constructor
  · intro covered context isActive
    by_contra missing
    exact covered ⟨context, isActive, missing⟩
  · rintro selects ⟨context, isActive, missing⟩
    exact missing (selects context isActive)

theorem listsCompatible_iff (contextIds : List ContextId) :
    db.listsCompatible contextIds id = true ↔ db.kindsSelected contextIds id := by
  have compatible (attached : MembershipRow × ContextRow) :
      ((db.membershipContexts id).any fun compatible =>
        decide (compatible.2.context.kind = attached.2.context.kind) &&
          activeMembership compatible && contextIds.contains compatible.1.contextId) = true ↔
      ∃ other ∈ db.activeContexts id,
        other.kind = attached.2.context.kind ∧ other.id ∈ contextIds := by
    rw [List.any_eq_true, ← exists_activeMembership_iff]
    refine exists_congr fun pair => and_congr_right fun pairMem => ?_
    have named := (mem_membershipContexts_iff.mp pairMem).2.2.2
    simp only [Bool.and_eq_true, decide_eq_true_iff, List.contains_iff_mem, named]
    tauto
  have uncovered : db.listsCompatible contextIds id = true ↔
      ¬ ∃ attached ∈ db.membershipContexts id, activeMembership attached = true ∧
        ¬ ∃ other ∈ db.activeContexts id,
          other.kind = attached.2.context.kind ∧ other.id ∈ contextIds := by
    simp only [Db.listsCompatible, Bool.not_eq_true', ← Bool.not_eq_true, List.any_eq_true,
      Bool.and_eq_true, compatible]
  rw [uncovered, exists_activeMembership_iff (fun context =>
    ¬ ∃ other ∈ db.activeContexts id, other.kind = context.kind ∧ other.id ∈ contextIds)]
  exact kindsSelected_of_uncovered contextIds

theorem governed_stored_iff {row : MemoryRow} :
    (db.stored row).governed = true ↔ (db.activeContexts row.id).Nonempty := by
  have active := @exists_activeAttached_iff db row fun _ _ => True
  simpa only [StoredMemory.governed, List.any_eq_true, decide_eq_true_iff, and_true,
    Set.Nonempty] using active

theorem contextsCompatible_stored_iff (contextIds : List ContextId) {row : MemoryRow} :
    contextsCompatible contextIds (db.stored row).contexts = true ↔
      db.kindsSelected contextIds row.id := by
  have compatible (kind : ContextKind) :
      ((db.stored row).contexts.any fun compatible => decide (compatible.kind = kind) &&
        decide (compatible.lifecycle = .active) && contextIds.contains compatible.id) = true ↔
      ∃ other ∈ db.activeContexts row.id, other.kind = kind ∧ other.id ∈ contextIds := by
    rw [List.any_eq_true, ← exists_activeAttached_iff
      (fun otherKind otherId => otherKind = kind ∧ otherId ∈ contextIds)]
    refine exists_congr fun attached => and_congr_right fun _ => ?_
    simp only [Bool.and_eq_true, decide_eq_true_iff, List.contains_iff_mem]
    tauto
  have uncovered : contextsCompatible contextIds (db.stored row).contexts = true ↔
      ¬ ∃ attached ∈ (db.stored row).contexts, attached.lifecycle = .active ∧
        ¬ ∃ other ∈ db.activeContexts row.id,
          other.kind = attached.kind ∧ other.id ∈ contextIds := by
    simp only [contextsCompatible, List.all_eq_true, Bool.or_eq_true, decide_eq_true_iff,
      compatible]
    constructor
    · rintro each ⟨attached, attachedMem, isActive, missing⟩
      rcases each attached attachedMem with inactive | covered
      · exact inactive isActive
      · exact missing covered
    · intro covered attached attachedMem
      by_cases isActive : attached.lifecycle = .active
      · right
        by_contra missing
        exact covered ⟨attached, attachedMem, isActive, missing⟩
      · exact Or.inl isActive
  rw [uncovered, exists_activeAttached_iff (fun kind _ =>
    ¬ ∃ other ∈ db.activeContexts row.id, other.kind = kind ∧ other.id ∈ contextIds)]
  exact kindsSelected_of_uncovered contextIds

/-- A memory is listed for its legacy memberships when one of its active
contexts is named. -/
theorem legacyMemberships_iff (contextIds : List ContextId) :
    (db.legacyMemberships contextIds).contains id = true ↔
      ∃ context ∈ db.activeContexts id, context.id ∈ contextIds := by
  rw [← exists_activeMembership_iff, List.contains_iff_mem, Db.legacyMemberships, List.mem_map]
  constructor
  · rintro ⟨pair, pairMem, ofMemory⟩
    obtain ⟨joined, kept⟩ := List.mem_filter.mp pairMem
    obtain ⟨membership, stored, named⟩ := Table.mem_join_iff.mp joined
    rw [Bool.and_eq_true, List.contains_iff_mem] at kept
    exact ⟨pair, mem_membershipContexts_iff.mpr ⟨membership, ofMemory, stored, named⟩, kept.2,
      by rw [named]; exact kept.1⟩
  · rintro ⟨pair, pairMem, isActive, selected⟩
    obtain ⟨membership, ofMemory, stored, named⟩ := mem_membershipContexts_iff.mp pairMem
    refine ⟨pair, List.mem_filter.mpr ⟨Table.mem_join_iff.mpr ⟨membership, stored, named⟩, ?_⟩,
      ofMemory⟩
    rw [named] at selected
    simp [isActive, selected]

theorem legacy_stored_iff (contextIds : List ContextId) {row : MemoryRow} :
    ((db.stored row).contexts.any fun context =>
        contextIds.contains context.id && decide (context.lifecycle = .active)) = true ↔
      ∃ context ∈ db.activeContexts row.id, context.id ∈ contextIds := by
  rw [List.any_eq_true, ← exists_activeAttached_iff
    (fun _ contextId => contextId ∈ contextIds)]
  refine exists_congr fun attached => and_congr_right fun _ => ?_
  simp only [Bool.and_eq_true, decide_eq_true_iff, List.contains_iff_mem]
  tauto

/-- The conditions of a filter accept what the conditions of the listing do. -/
theorem sqlContexts_eq_listingContexts (filter : MemoryFilter) (row : MemoryRow) :
    sqlContexts filter (db.stored row) =
      db.listingContexts filter.contextIds filter.legacyContextIdsAny row.id := by
  have governed : (db.stored row).governed = db.listsGoverned row.id :=
    Bool.eq_iff_iff.mpr (governed_stored_iff.trans listsGoverned_iff.symm)
  have compatible (contextIds : List ContextId) :
      contextsCompatible contextIds (db.stored row).contexts =
        db.listsCompatible contextIds row.id :=
    Bool.eq_iff_iff.mpr
      ((contextsCompatible_stored_iff contextIds).trans (listsCompatible_iff contextIds).symm)
  have legacy (contextIds : List ContextId) :
      ((db.stored row).contexts.any fun context =>
          contextIds.contains context.id && decide (context.lifecycle = .active)) =
        (db.legacyMemberships contextIds).contains row.id :=
    Bool.eq_iff_iff.mpr
      ((legacy_stored_iff contextIds).trans (legacyMemberships_iff contextIds).symm)
  simp only [sqlContexts, Db.listingContexts, governed, compatible, legacy]

/-- The conditions of the listing are the rule. -/
theorem listingContexts_iff (contextIds : List ContextId) :
    db.listingContexts (some contextIds) none id = true ↔
      Applicable (db.activeContexts id) ContextDefinition.kind ContextDefinition.id
        {contextId | contextId ∈ contextIds} := by
  rw [applicable_iff, ← listsGoverned_iff, ← listsCompatible_iff]
  simp [Db.listingContexts]

end Accepts

/-- The conditions of a filter on memberships and those of the listing accept
the same memories.  For a selection of contexts they accept a memory exactly
when the selection applies to its active contexts, and enlarging a selection
that is not empty drops no memory. -/
theorem context_applicability [Host] (db : Db) (filter : MemoryFilter) (row : MemoryRow) :
    selects (contextConditions filter) (db.stored row).encoded =
        db.listingContexts filter.contextIds filter.legacyContextIdsAny row.id ∧
      ∀ contextIds : List ContextId,
        let chosen : MemoryFilter :=
          { filter with contextIds := some contextIds, legacyContextIdsAny := none }
        (selects (contextConditions chosen) (db.stored row).encoded = true ↔
          Applicable (db.activeContexts row.id) ContextDefinition.kind ContextDefinition.id
            {contextId | contextId ∈ contextIds}) ∧
        (db.listingContexts (some contextIds) none row.id = true ↔
          Applicable (db.activeContexts row.id) ContextDefinition.kind ContextDefinition.id
            {contextId | contextId ∈ contextIds}) ∧
        ∀ wider : List ContextId, contextIds ≠ [] → contextIds ⊆ wider →
          db.listingContexts (some contextIds) none row.id = true →
            db.listingContexts (some wider) none row.id = true := by
  have builder (filter : MemoryFilter) : selects (contextConditions filter) (db.stored row).encoded =
      db.listingContexts filter.contextIds filter.legacyContextIdsAny row.id := by
    rw [@selects_contextConditions filter _ (db.stored row) rfl,
      sqlContexts_eq_listingContexts]
  refine ⟨builder filter, ?_⟩
  intro contextIds chosen
  refine ⟨?_, listingContexts_iff contextIds, ?_⟩
  · rw [builder chosen]
    exact listingContexts_iff contextIds
  · intro wider nonempty more accepted
    have some : {contextId | contextId ∈ contextIds}.Nonempty :=
      List.exists_mem_of_ne_nil contextIds nonempty
    exact (listingContexts_iff wider).mpr
      (((listingContexts_iff contextIds).mp accepted).mono some more)

/-- A project that holds a memory. -/
def projectHolding : Db :=
  { Db.empty 1 with
    contexts := ⟨[⟨⟨⟨1⟩, ContextKind.project, "project:atlas", "Atlas", none, "owner", none, none,
      .active, false, 0, 0⟩, "project:atlas"⟩], by decide⟩
    memoryContexts := ⟨[⟨⟨1⟩, ⟨1⟩, 0, 0⟩], by decide⟩ }

/-- The project still selects its memory when another context is selected too. -/
theorem context_applicability_widened :
    projectHolding.listingContexts (some [⟨1⟩, ⟨9⟩]) none ⟨1⟩ = true :=
  ((@context_applicability asciiHost projectHolding .default
    (preparedMemoryRow ⟨Memory.plain ⟨1⟩ "owner" "text" 0, none⟩)).2 [⟨1⟩]).2.2 [⟨1⟩, ⟨9⟩]
      (by decide) (by decide) (by decide)

end LocalHold
