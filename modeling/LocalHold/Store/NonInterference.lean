import LocalHold.Store.Query

/-!
# Redaction is not an oracle

Two stored memories look alike to a caller when they agree on policy and
lifecycle and on every field the caller's view shows.  Whatever their hidden
fields hold, every read path treats them alike: both are returned, with the
same view on the wire, or neither is.

The argument for a hidden field is the same in every dimension.  The view holds
a fixed empty value there, so a filter that the view passes does not constrain
the field, and the SQL condition on the stored column holds for both.
-/

namespace LocalHold

/-! ## Looking alike -/

/-- Agreement on one redactable field.  The vector is computed from the
content and belongs to it. -/
def AgreeOn (first second : StoredMemory) : RedactableField → Prop
  | .content => first.columns.content = second.columns.content ∧ first.vector = second.vector
  | .tags => first.columns.tags = second.columns.tags
  | .provenance => first.columns.provenance = second.columns.provenance
  | .entities => first.entities = second.entities
  | .importance => first.columns.importance = second.columns.importance
  | .expiresAt => first.columns.expiresAt = second.columns.expiresAt
  | .unknown _ => True

/-- Agreement on the fields that every view shows. -/
structure AgreeAlways (first second : StoredMemory) : Prop where
  id : first.columns.id = second.columns.id
  createdAt : first.columns.createdAt = second.columns.createdAt
  hasEmbedding : first.columns.hasEmbedding = second.columns.hasEmbedding
  memoryType : first.columns.memoryType = second.columns.memoryType
  importance : first.columns.importance = second.columns.importance

/-- Two stored memories that look alike to a caller. -/
structure LooksAlike (caller : Option String) (first second : StoredMemory) : Prop where
  policy : first.columns.accessPolicy = second.columns.accessPolicy
  expiresAt : first.columns.expiresAt = second.columns.expiresAt
  supersededBy : first.columns.supersededBy = second.columns.supersededBy
  full : first.columns.checkAccessLevel caller = .full ∨
    second.columns.checkAccessLevel caller = .full → first = second
  redacted : first.columns.checkAccessLevel caller = .redacted ∨
    second.columns.checkAccessLevel caller = .redacted → AgreeAlways first second ∧
      ∀ field ∈ first.columns.accessPolicy.visibleFields, AgreeOn first second field

/-- What a filter may ask about the contexts of two memories that look alike.
The contexts are rows of another table: with the same rows every filter is
covered.  With different rows a governed read still sees whether an active
context is attached, and a filter must be marked explicit when it names one. -/
def SameContexts (filter : MemoryFilter) (first second : StoredMemory) : Prop :=
  first.contexts = second.contexts ∨
    filter.namesContextsExplicitly ∧ first.governed = second.governed

/-- Without full access, the level depends on policy and caller only. -/
theorem accessLevel_eq_of_not_full {first second : Provenance} {policy : AccessPolicy}
    {caller : Option String} (firstNot : accessLevel first policy caller ≠ .full)
    (secondNot : accessLevel second policy caller ≠ .full) :
    accessLevel first policy caller = accessLevel second policy caller := by
  cases policy with
  | publicPolicy => rfl
  | restricted allowed =>
      cases name : effectiveCaller caller with
      | none => simp [accessLevel, name]
      | some agent => simp_all [accessLevel]
  | redacted fields =>
      cases name : effectiveCaller caller with
      | none => simp [accessLevel, name]
      | some agent => simp_all [accessLevel]

theorem LooksAlike.level_eq {caller : Option String} {first second : StoredMemory}
    (alike : LooksAlike caller first second) :
    first.columns.checkAccessLevel caller = second.columns.checkAccessLevel caller := by
  by_cases either : first.columns.checkAccessLevel caller = .full ∨
      second.columns.checkAccessLevel caller = .full
  · rw [alike.full either]
  · rw [not_or] at either
    unfold Memory.checkAccessLevel at either ⊢
    rw [alike.policy] at either ⊢
    exact accessLevel_eq_of_not_full either.1 either.2

/-! ## Views -/

/-- Two views that agree, except on scoring fields that do not reach the wire. -/
def SameView (first second : Memory) : Prop :=
  first = { second with
    updatedAt := first.updatedAt
    confidence := first.confidence
    activityMass := first.activityMass
    lastUsedAt := first.lastUsedAt }

theorem SameView.sanitizeForWire {first second : Memory} (same : SameView first second)
    (wasRedacted : first.wasRedacted = true) :
    first.sanitizeForWire = second.sanitizeForWire := by
  rw [same] at wasRedacted ⊢
  simp only at wasRedacted
  simp [Memory.sanitizeForWire, wasRedacted]

theorem SameView.matchesNonAccessFilter [Host] {first second : Memory}
    (same : SameView first second) (filter : MemoryFilter) (now : Instant) :
    matchesNonAccessFilter first filter now = matchesNonAccessFilter second filter now := by
  rw [same]
  simp only [LocalHold.matchesNonAccessFilter, matchesLifecycleFilter]

theorem SameView.contentSearchableBy {first second : Memory} (same : SameView first second)
    (caller : Option String) :
    first.contentSearchableBy caller = second.contentSearchableBy caller := by
  rw [same]
  simp only [Memory.contentSearchableBy, Memory.checkAccessLevel]

theorem shown_eq {α : Type} {shown : Bool} {first second empty : α}
    (agree : shown = true → first = second) :
    (if shown then first else empty) = if shown then second else empty := by
  cases shown with
  | true => exact agree rfl
  | false => rfl

/-- Redaction hides the entities unless the policy shows them. -/
theorem SameView.redacted_withEntities {first second : Memory}
    {firstEntities secondEntities : List Entity}
    (same : SameView first second)
    (shown : second.accessPolicy.visibleFields.contains .entities = true →
      firstEntities = secondEntities) :
    SameView (first.withEntities firstEntities).redacted
      (second.withEntities secondEntities).redacted := by
  rw [same]
  simp only [SameView, Memory.redacted, Memory.withEntities, Memory.mk.injEq, and_true, true_and]
  exact ⟨rfl, rfl, rfl, rfl, shown_eq shown⟩

theorem Memory.checkAccessLevel_redacted {memory : Memory} {caller : Option String}
    (level : memory.checkAccessLevel caller = .redacted) :
    memory.redacted.checkAccessLevel caller = .redacted := by
  obtain ⟨fields, policyEq⟩ := accessLevel_redacted_policy level
  simp only [Memory.checkAccessLevel, Memory.redacted, policyEq, accessLevel] at level ⊢
  cases name : effectiveCaller caller with
  | none => simp [name] at level
  | some agent =>
      simp only [name] at level ⊢
      split
      · exact level
      · simp [Provenance.default]

@[simp]
theorem Memory.checkAccessLevel_withEntities (memory : Memory) (entities : List Entity)
    (caller : Option String) :
    (memory.withEntities entities).checkAccessLevel caller = memory.checkAccessLevel caller :=
  rfl

theorem Memory.contentSearchableBy_of_redacted {memory : Memory} {caller : Option String}
    (level : memory.checkAccessLevel caller = .redacted) :
    memory.contentSearchableBy caller = memory.accessPolicy.visibleFields.contains .content := by
  obtain ⟨fields, policyEq⟩ := accessLevel_redacted_policy level
  simp [Memory.contentSearchableBy, level, policyEq, AccessPolicy.visibleFields]

/-! ## Empty views pass no filter -/

section Dimensions

variable {filter : MemoryFilter}

theorem matchesAny_of_never {wanted : Option (List String)}
    (passes : matchesAny wanted (fun _ => false) = true) (holds : String → Bool) :
    matchesAny wanted holds = true := by
  cases wanted with
  | none => rfl
  | some values => simp_all [matchesAny]

theorem matchesTags_of_nil (passes : matchesTags filter [] = true) (tags : List String) :
    matchesTags filter tags = true :=
  matchesAny_of_never (by simpa [matchesTags] using passes) _

theorem matchesProvenance_of_default (passes : matchesProvenance filter .default = true)
    (provenance : Provenance) : matchesProvenance filter provenance = true := by
  simp only [matchesProvenance, Provenance.default, Bool.and_eq_true, Option.all_eq_true,
    Option.or_none] at passes ⊢
  obtain ⟨⟨⟨agent, scope⟩, origin⟩, scopes⟩ := passes
  refine ⟨⟨⟨?_, ?_⟩, ?_⟩, matchesAny_of_never scopes _⟩
  · exact fun label labelEq => absurd (agent label labelEq) (by simp)
  · exact fun key keyEq => absurd (scope key keyEq) (by simp)
  · exact fun key keyEq => absurd (origin key keyEq) (by simp)

theorem matchesEntities_of_nil (passes : matchesEntities filter [] = true)
    (entities : List Entity) : matchesEntities filter entities = true := by
  simp only [matchesEntities, List.any_nil, Bool.and_eq_true, Option.all_eq_true] at passes ⊢
  obtain ⟨⟨name, names⟩, kind⟩ := passes
  refine ⟨⟨?_, matchesAny_of_never names _⟩, ?_⟩
  · exact fun wanted wantedEq => absurd (name wanted wantedEq) (by simp)
  · exact fun wanted wantedEq => absurd (kind wanted wantedEq) (by simp)

/-- A dimension whose field is shown or emptied does not tell two memories
apart once the view passes it. -/
theorem dimension_eq {α : Type} {shown : Bool} {empty first second : α} {test : α → Bool}
    (ofEmpty : test empty = true → ∀ value, test value = true)
    (agree : shown = true → first = second)
    (passes : test (if shown then first else empty) = true) : test first = test second := by
  cases shown with
  | true => rw [agree rfl]
  | false =>
      have always := ofEmpty passes
      rw [always first, always second]

end Dimensions

/-! ## A redacted caller -/

section Redacted

variable [Host] {caller : Option String} {first second : StoredMemory} {filter : MemoryFilter}
  {now : Instant} {firstEntities secondEntities : List Entity}

omit [Host] in
theorem LooksAlike.agreeOn (alike : LooksAlike caller first second)
    (level : first.columns.checkAccessLevel caller = .redacted) {field : RedactableField}
    (shown : first.columns.accessPolicy.visibleFields.contains field = true) :
    AgreeOn first second field :=
  (alike.redacted (Or.inl level)).2 field (List.contains_iff_mem.mp shown)

omit [Host] in
/-- The redacted views of memories that look alike agree. -/
theorem LooksAlike.sameView (alike : LooksAlike caller first second)
    (level : first.columns.checkAccessLevel caller = .redacted)
    (entities : first.columns.accessPolicy.visibleFields.contains .entities = true →
      firstEntities = secondEntities) :
    SameView (first.columns.withEntities firstEntities).redacted
      (second.columns.withEntities secondEntities).redacted := by
  have always := (alike.redacted (Or.inl level)).1
  simp only [SameView, Memory.redacted, Memory.withEntities, Memory.mk.injEq, and_true, true_and,
    ← alike.policy]
  refine ⟨always.id, shown_eq fun shown => (alike.agreeOn level shown).1,
    shown_eq fun shown => alike.agreeOn level shown,
    shown_eq fun shown => alike.agreeOn level shown, always.createdAt,
    shown_eq fun _ => alike.expiresAt, always.hasEmbedding, always.memoryType, always.importance,
    alike.supersededBy, shown_eq entities⟩

/-- The tests that a redacted view passes before it is returned. -/
def acceptsView (filter : MemoryFilter) (caller : Option String) (now : Instant)
    (memory : Memory) : Bool :=
  matchesLifecycleFilter memory filter now && !memory.supersededBy.isSome &&
    !filter.explicitContextFilter && matchesNonAccessFilter memory.redacted filter now &&
    !(filter.textSearch.isSome && !memory.redacted.contentSearchableBy caller)

omit [Host] in
theorem refusals_eq {α : Type} (lifecycle superseded explicit passes unsearchable : Bool)
    (value : Option α) :
    (if !lifecycle then none
      else if superseded then none
      else if explicit then none
      else if !passes then none
      else if unsearchable then none
      else value) =
      if lifecycle && !superseded && !explicit && passes && !unsearchable then value else none := by
  cases lifecycle <;> cases superseded <;> cases explicit <;> cases passes <;>
    cases unsearchable <;> simp

theorem applyAccessPolicyForFilter_of_redacted {memory : Memory}
    (level : memory.checkAccessLevel caller = .redacted) :
    applyAccessPolicyForFilter memory filter caller now =
      if acceptsView filter caller now memory then some memory.redacted else none := by
  have visible : memory.applyAccessPolicy caller = some memory.redacted := by
    simp [Memory.applyAccessPolicy, level]
  have wasRedacted : memory.redacted.wasRedacted = true := rfl
  simp only [applyAccessPolicyForFilter, visible, wasRedacted, Bool.true_and]
  exact refusals_eq _ _ _ _ _ _

theorem LooksAlike.acceptsView_eq (alike : LooksAlike caller first second)
    (level : first.columns.checkAccessLevel caller = .redacted)
    (entities : first.columns.accessPolicy.visibleFields.contains .entities = true →
      firstEntities = secondEntities) :
    acceptsView filter caller now (first.columns.withEntities firstEntities) =
      acceptsView filter caller now (second.columns.withEntities secondEntities) := by
  have same := alike.sameView level entities
  have lifecycle : ∀ entries others, matchesLifecycleFilter (first.columns.withEntities entries)
      filter now = matchesLifecycleFilter (second.columns.withEntities others) filter now := by
    intro entries others
    simp only [matchesLifecycleFilter, Memory.withEntities, alike.supersededBy, alike.expiresAt]
  have superseded : (first.columns.withEntities firstEntities).supersededBy =
      (second.columns.withEntities secondEntities).supersededBy := alike.supersededBy
  simp only [acceptsView, lifecycle firstEntities secondEntities, superseded,
    same.matchesNonAccessFilter filter now, same.contentSearchableBy caller]

/-- What a returned view says about the filter. -/
structure PassedView (filter : MemoryFilter) (memory : Memory) : Prop where
  implicit : filter.explicitContextFilter = false
  tags : matchesTags filter memory.redacted.tags = true
  provenance : matchesProvenance filter memory.redacted.provenance = true
  entities : matchesEntities filter memory.redacted.entities = true
  text : filter.textSearch ≠ none →
    memory.accessPolicy.visibleFields.contains .content = true

theorem passedView_of_acceptsView {memory : Memory}
    (level : memory.checkAccessLevel caller = .redacted)
    (accepted : acceptsView filter caller now memory = true) : PassedView filter memory := by
  simp only [acceptsView, Bool.and_eq_true, Bool.not_eq_true', matchesNonAccessFilter] at accepted
  obtain ⟨⟨⟨_, implicit⟩, ⟨⟨⟨⟨⟨⟨⟨tags, provenance⟩, entities⟩, _⟩, _⟩, _⟩, _⟩, _⟩⟩, text⟩ := accepted
  refine ⟨implicit, tags, provenance, entities, fun present => ?_⟩
  have searchable : memory.redacted.contentSearchableBy caller = true := by
    simp only [Bool.and_eq_false_imp, Bool.not_eq_false'] at text
    exact text (Option.isSome_iff_ne_none.mpr present)
  rw [Memory.contentSearchableBy_of_redacted (Memory.checkAccessLevel_redacted level)] at searchable
  exact searchable

omit [Host] in
theorem matchesEntities_of_unneeded (unneeded : needsEntityHydration filter = false)
    (entities : List Entity) : matchesEntities filter entities = true := by
  simp only [needsEntityHydration, Bool.or_eq_false_iff, Option.isSome_eq_false_iff,
    Option.isNone_iff_eq_none] at unneeded
  obtain ⟨⟨name, names⟩, kind⟩ := unneeded
  simp [matchesEntities, matchesAny, name, names, kind]

omit [Host] in
theorem SameContexts.sqlContexts_eq (same : SameContexts filter first second)
    (implicit : filter.explicitContextFilter = false) :
    sqlContexts filter first = sqlContexts filter second := by
  obtain sameRows | ⟨named, governed⟩ := same
  · simp only [sqlContexts, StoredMemory.governed, sameRows]
  obtain ⟨noContexts, noLegacy⟩ := named implicit
  have contexts : ∀ stored : StoredMemory, sqlContexts filter stored =
      filter.contextIds.all fun _ => stored.governed := by
    intro stored
    unfold sqlContexts
    cases contextIds : filter.contextIds <;> cases legacy : filter.legacyContextIdsAny <;>
      simp_all
  rw [contexts, contexts, governed]

/-- Once a view is returned, the SQL conditions do not tell the memories apart. -/
theorem LooksAlike.whereClause_eq (alike : LooksAlike caller first second)
    (level : first.columns.checkAccessLevel caller = .redacted)
    (contexts : SameContexts filter first second)
    (hydrated : needsEntityHydration filter = true → firstEntities = first.entities)
    (passed : PassedView filter (first.columns.withEntities firstEntities)) :
    whereClause filter caller now first = whereClause filter caller now second := by
  have always := (alike.redacted (Or.inl level)).1
  have tags : matchesTags filter first.columns.tags = matchesTags filter second.columns.tags :=
    dimension_eq matchesTags_of_nil
      (fun shown => (alike.agreeOn level shown : AgreeOn first second .tags)) passed.tags
  have provenance : matchesProvenance filter first.columns.provenance =
      matchesProvenance filter second.columns.provenance :=
    dimension_eq matchesProvenance_of_default
      (fun shown => (alike.agreeOn level shown : AgreeOn first second .provenance))
      passed.provenance
  have entities : matchesEntities filter first.entities =
      matchesEntities filter second.entities := by
    cases needed : needsEntityHydration filter with
    | false => rw [matchesEntities_of_unneeded needed, matchesEntities_of_unneeded needed]
    | true =>
        have viewPasses := passed.entities
        rw [hydrated needed] at viewPasses
        exact dimension_eq matchesEntities_of_nil
          (fun shown => (alike.agreeOn level shown : AgreeOn first second .entities)) viewPasses
  have text : (filter.textSearch.all fun wanted => likeContains first.columns.content wanted) =
      filter.textSearch.all fun wanted => likeContains second.columns.content wanted := by
    cases present : filter.textSearch with
    | none => rw [Option.all_none, Option.all_none]
    | some wanted =>
        have shown := passed.text (by simp [present])
        rw [(alike.agreeOn level shown).1]
  simp only [whereClause, alike.expiresAt, always.createdAt, provenance,
    contexts.sqlContexts_eq passed.implicit, text, always.hasEmbedding, tags,
    always.memoryType, alike.supersededBy, entities, alike.policy]

/-! ## Outcomes -/

/-- Both outcomes are refusals, or both are redacted views that agree. -/
inductive SameOutcome : Option Memory → Option Memory → Prop where
  | refused : SameOutcome none none
  | returned {first second : Memory} (same : SameView first second)
      (wasRedacted : first.wasRedacted = true) : SameOutcome (some first) (some second)

omit [Host] in
theorem SameOutcome.wire {first second : Option Memory} (same : SameOutcome first second) :
    first.map Memory.sanitizeForWire = second.map Memory.sanitizeForWire := by
  cases same with
  | refused => rfl
  | returned same wasRedacted =>
      rw [Option.map_some, Option.map_some, same.sanitizeForWire wasRedacted]

omit [Host] in
theorem applyAccessPolicy_of_redacted {memory : Memory}
    (level : memory.checkAccessLevel caller = .redacted) :
    memory.applyAccessPolicy caller = some memory.redacted := by
  simp [Memory.applyAccessPolicy, level]

/-- A path that gates a row, tests the view and finishes it.  The gates need to
agree only when the view passes and is finished. -/
theorem LooksAlike.sameOutcome (alike : LooksAlike caller first second)
    (level : first.columns.checkAccessLevel caller = .redacted)
    (entities : first.columns.accessPolicy.visibleFields.contains .entities = true →
      firstEntities = secondEntities)
    {firstGate secondGate : Bool} {finishFirst finishSecond : Memory → Option Memory}
    (finish : SameOutcome (finishFirst (first.columns.withEntities firstEntities).redacted)
      (finishSecond (second.columns.withEntities secondEntities).redacted))
    (gates : PassedView filter (first.columns.withEntities firstEntities) →
      finishFirst (first.columns.withEntities firstEntities).redacted ≠ none →
      firstGate = secondGate) :
    SameOutcome
      (if firstGate then (applyAccessPolicyForFilter (first.columns.withEntities firstEntities)
        filter caller now).bind finishFirst else none)
      (if secondGate then (applyAccessPolicyForFilter (second.columns.withEntities secondEntities)
        filter caller now).bind finishSecond else none) := by
  have secondLevel : second.columns.checkAccessLevel caller = .redacted := by
    rw [← alike.level_eq]
    exact level
  have firstPost : applyAccessPolicyForFilter (first.columns.withEntities firstEntities) filter
      caller now = _ := applyAccessPolicyForFilter_of_redacted level
  have secondPost : applyAccessPolicyForFilter (second.columns.withEntities secondEntities) filter
      caller now = _ := applyAccessPolicyForFilter_of_redacted secondLevel
  rw [firstPost, secondPost, ← alike.acceptsView_eq level entities]
  cases accepted : acceptsView filter caller now (first.columns.withEntities firstEntities) with
  | false => simpa using SameOutcome.refused
  | true =>
      have passed : PassedView filter (first.columns.withEntities firstEntities) :=
        passedView_of_acceptsView level accepted
      simp only [if_true, Option.bind_some]
      generalize firstEq : finishFirst (first.columns.withEntities firstEntities).redacted =
        firstFinal at finish gates
      generalize finishSecond (second.columns.withEntities secondEntities).redacted =
        secondFinal at finish
      cases finish with
      | refused => simpa using SameOutcome.refused
      | returned same wasRedacted =>
          rw [gates passed (by simp)]
          cases secondGate with
          | false => exact SameOutcome.refused
          | true => exact SameOutcome.returned same wasRedacted

omit [Host] in
theorem LooksAlike.agreeOnEntities (alike : LooksAlike caller first second)
    (level : first.columns.checkAccessLevel caller = .redacted)
    (shown : first.columns.accessPolicy.visibleFields.contains .entities = true) :
    first.entities = second.entities :=
  (alike.agreeOn level shown : AgreeOn first second .entities)

omit [Host] in
/-- A view that is redacted once more, perhaps with entities added, still agrees. -/
theorem SameView.finish {visible other : Memory} (same : SameView visible other)
    (level : visible.checkAccessLevel caller = .redacted)
    (shown : other.accessPolicy.visibleFields.contains .entities = true →
      firstEntities = secondEntities) :
    SameOutcome ((visible.withEntities firstEntities).applyAccessPolicy caller)
      ((other.withEntities secondEntities).applyAccessPolicy caller) := by
  have otherLevel : other.checkAccessLevel caller = .redacted := by
    rw [same] at level
    exact level
  have firstView : (visible.withEntities firstEntities).applyAccessPolicy caller = _ :=
    applyAccessPolicy_of_redacted level
  have secondView : (other.withEntities secondEntities).applyAccessPolicy caller = _ :=
    applyAccessPolicy_of_redacted otherLevel
  rw [firstView, secondView]
  exact SameOutcome.returned (same.redacted_withEntities shown) rfl

omit [Host] in
theorem SameView.finish_unchanged {visible other : Memory} (same : SameView visible other)
    (level : visible.checkAccessLevel caller = .redacted) :
    SameOutcome (visible.applyAccessPolicy caller) (other.applyAccessPolicy caller) := by
  have sameEntities : visible.entities = other.entities := by rw [same]
  exact same.finish level fun _ => sameEntities

section Paths

variable (alike : LooksAlike caller first second)
  (level : first.columns.checkAccessLevel caller = .redacted)
  (contexts : SameContexts filter first second)

include alike level contexts

theorem LooksAlike.sameOutcome_list :
    SameOutcome (listOutcome filter caller now first) (listOutcome filter caller now second) := by
  have shown := alike.agreeOnEntities level
  refine alike.sameOutcome level shown ?_ fun passed _ =>
    alike.whereClause_eq level contexts (fun _ => rfl) passed
  exact (alike.sameView level shown).finish_unchanged (Memory.checkAccessLevel_redacted level)

omit [Host] contexts in
theorem LooksAlike.agreeOnFetched (filter : MemoryFilter)
    (shown : first.columns.accessPolicy.visibleFields.contains .entities = true) :
    (if needsEntityHydration filter then first.entities else []) =
      if needsEntityHydration filter then second.entities else [] := by
  rw [alike.agreeOnEntities level shown]

theorem LooksAlike.sameOutcome_count :
    SameOutcome (countOutcome filter caller now first) (countOutcome filter caller now second) := by
  have shown := alike.agreeOnFetched level filter
  have outcome : SameOutcome
      (if whereClause filter caller now first then
        (applyAccessPolicyForFilter (first.fetched filter) filter caller now).bind some else none)
      (if whereClause filter caller now second then
        (applyAccessPolicyForFilter (second.fetched filter) filter caller now).bind some
        else none) := by
    refine alike.sameOutcome level shown ?_ fun passed _ =>
      alike.whereClause_eq level contexts (fun needed => if_pos needed) passed
    exact SameOutcome.returned (alike.sameView level shown) rfl
  simpa only [countOutcome, Option.bind_fun_some] using outcome

theorem LooksAlike.sameOutcome_text (query : String) :
    SameOutcome (textOutcome query filter caller now first)
      (textOutcome query filter caller now second) := by
  have shown := alike.agreeOnEntities level
  have view := alike.sameView level shown
  have viewLevel := Memory.checkAccessLevel_redacted level
  have searchable : (first.hydrated.redacted).contentSearchableBy caller =
      first.columns.accessPolicy.visibleFields.contains .content :=
    Memory.contentSearchableBy_of_redacted viewLevel
  refine alike.sameOutcome level shown ?_ ?_
  · have sameGate := view.contentSearchableBy caller
    have finished := view.finish_unchanged viewLevel
    simp only [← sameGate]
    split
    · exact finished
    · exact SameOutcome.refused
  · intro passed finishes
    have contentShown : first.columns.accessPolicy.visibleFields.contains .content = true := by
      rw [← searchable]
      by_contra hidden
      exact finishes (if_neg hidden)
    rw [(alike.agreeOn level contentShown).1,
      alike.whereClause_eq level contexts (fun _ => rfl) passed]

omit contexts in
/-- A path behind the content gate: its row conditions may read the content and
the vector. -/
theorem LooksAlike.sameOutcome_searched (condition : StoredMemory → Bool)
    (conditions : AgreeOn first second .content → PassedView filter (first.fetched filter) →
      condition first = condition second) :
    SameOutcome
      (if condition first then searchedOutcome filter caller now first else none)
      (if condition second then searchedOutcome filter caller now second else none) := by
  have shown := alike.agreeOnFetched level filter
  have view := alike.sameView level shown
  have viewLevel := Memory.checkAccessLevel_redacted level
  have secondLevel : second.columns.checkAccessLevel caller = .redacted :=
    alike.level_eq ▸ level
  have firstGate : (first.fetched filter).contentSearchableBy caller =
      first.columns.accessPolicy.visibleFields.contains .content :=
    Memory.contentSearchableBy_of_redacted level
  have secondGate : (second.fetched filter).contentSearchableBy caller =
      first.columns.accessPolicy.visibleFields.contains .content := by
    rw [alike.policy]
    exact Memory.contentSearchableBy_of_redacted secondLevel
  simp only [searchedOutcome, firstGate, secondGate, ← ite_and, ← Bool.and_eq_true]
  refine alike.sameOutcome level shown ?_ fun passed _ => ?_
  · split
    · next needed =>
        simpa only [needed, if_true] using view.finish_unchanged viewLevel
    · refine view.finish viewLevel fun visible => alike.agreeOnEntities level ?_
      rw [alike.policy]
      exact visible
  · cases contentShown : first.columns.accessPolicy.visibleFields.contains .content with
    | false => rw [Bool.and_false, Bool.and_false]
    | true => rw [conditions (alike.agreeOn level contentShown) passed]

theorem LooksAlike.sameOutcome_fts (contentMatch : String → Bool) :
    SameOutcome (ftsOutcome contentMatch filter caller now first)
      (ftsOutcome contentMatch filter caller now second) := by
  refine alike.sameOutcome_searched level
    (fun stored => contentMatch stored.columns.content && whereClause filter caller now stored) ?_
  intro content passed
  rw [content.1, alike.whereClause_eq level contexts (fun needed => if_pos needed) passed]

theorem LooksAlike.sameOutcome_vector {δ : Type} [LE δ] [DecidableRel (α := δ) (· ≤ ·)]
    (distance : Embedding → δ) (maxDistance : Option δ) :
    SameOutcome (vectorOutcome distance maxDistance filter caller now first)
      (vectorOutcome distance maxDistance filter caller now second) := by
  refine alike.sameOutcome_searched level (fun stored =>
    (stored.vector.isSome && (!(filter.contextIds.isSome ||
        filter.legacyContextIdsAny.any fun contextIds => !contextIds.isEmpty) ||
      whereClause filter caller now stored)) &&
      maxDistance.all fun threshold =>
        stored.vector.any fun vector => decide (distance vector ≤ threshold)) ?_
  intro content passed
  rw [content.2, alike.whereClause_eq level contexts (fun needed => if_pos needed) passed]

end Paths

end Redacted

/-! ## All callers -/

section Callers

variable [Host] {caller : Option String} {filter : MemoryFilter} {now : Instant}

theorem applyAccessPolicyForFilter_of_denied {memory : Memory}
    (level : memory.checkAccessLevel caller = .denied) :
    applyAccessPolicyForFilter memory filter caller now = none := by
  have hidden : memory.applyAccessPolicy caller = none := by
    simp [Memory.applyAccessPolicy, level]
  simp [applyAccessPolicyForFilter, hidden]

/-- A caller whose access is denied learns nothing from any path. -/
theorem outcomes_of_denied (filter : MemoryFilter) (now : Instant) {stored : StoredMemory}
    (level : stored.columns.checkAccessLevel caller = .denied) :
    listOutcome filter caller now stored = none ∧ countOutcome filter caller now stored = none ∧
      (∀ query, textOutcome query filter caller now stored = none) ∧
      searchedOutcome filter caller now stored = none := by
  have refused : ∀ entities, applyAccessPolicyForFilter (stored.columns.withEntities entities)
      filter caller now = none := fun _ => applyAccessPolicyForFilter_of_denied level
  refine ⟨?_, ?_, fun query => ?_, ?_⟩
  · simp [listOutcome, StoredMemory.hydrated, refused]
  · simp [countOutcome, StoredMemory.fetched, refused]
  · simp [textOutcome, StoredMemory.hydrated, refused]
  · simp [searchedOutcome, StoredMemory.fetched, refused]

/-- A filter reads two stored memories alike on a path: both are returned, with
the same view on the wire, or neither is. -/
structure ReadAlike (filter : MemoryFilter) (caller : Option String) (now : Instant)
    (first second : StoredMemory) : Prop where
  list : (listOutcome filter caller now first).map Memory.sanitizeForWire =
    (listOutcome filter caller now second).map Memory.sanitizeForWire
  count : (countOutcome filter caller now first).map Memory.sanitizeForWire =
    (countOutcome filter caller now second).map Memory.sanitizeForWire
  text : ∀ query, (textOutcome query filter caller now first).map Memory.sanitizeForWire =
    (textOutcome query filter caller now second).map Memory.sanitizeForWire
  fts : ∀ contentMatch,
    (ftsOutcome contentMatch filter caller now first).map Memory.sanitizeForWire =
      (ftsOutcome contentMatch filter caller now second).map Memory.sanitizeForWire
  vector : ∀ (δ : Type) [LE δ] [DecidableRel (α := δ) (· ≤ ·)] (distance : Embedding → δ)
    (maxDistance : Option δ),
    (vectorOutcome distance maxDistance filter caller now first).map Memory.sanitizeForWire =
      (vectorOutcome distance maxDistance filter caller now second).map Memory.sanitizeForWire

theorem LooksAlike.readAlike {first second : StoredMemory}
    (alike : LooksAlike caller first second) (contexts : SameContexts filter first second) :
    ReadAlike filter caller now first second := by
  cases level : first.columns.checkAccessLevel caller with
  | full =>
      rw [alike.full (Or.inl level)]
      exact ⟨rfl, rfl, fun _ => rfl, fun _ => rfl, fun _ _ _ _ _ => rfl⟩
  | redacted =>
      exact ⟨(alike.sameOutcome_list level contexts).wire,
        (alike.sameOutcome_count level contexts).wire,
        fun query => (alike.sameOutcome_text level contexts query).wire,
        fun contentMatch => (alike.sameOutcome_fts level contexts contentMatch).wire,
        fun _ _ _ distance maxDistance =>
          (alike.sameOutcome_vector level contexts distance maxDistance).wire⟩
  | denied =>
      have secondLevel : second.columns.checkAccessLevel caller = .denied := by
        rw [← alike.level_eq]
        exact level
      obtain ⟨firstList, firstCount, firstText, firstSearched⟩ :=
        outcomes_of_denied filter now level
      obtain ⟨secondList, secondCount, secondText, secondSearched⟩ :=
        outcomes_of_denied filter now secondLevel
      refine ⟨?_, ?_, fun query => ?_, fun contentMatch => ?_, fun _ _ _ _ _ => ?_⟩
      · rw [firstList, secondList]
      · rw [firstCount, secondCount]
      · rw [firstText, secondText]
      · simp [ftsOutcome, firstSearched, secondSearched]
      · simp [vectorOutcome, firstSearched, secondSearched]

/-- Redaction is not an oracle.  Two stored memories that look alike to a caller
are treated alike by every read path, for every filter: both are returned, with
the same view on the wire, or neither is. -/
theorem redaction_noninterference {first second : StoredMemory}
    (alike : LooksAlike caller first second) (contexts : first.contexts = second.contexts) :
    ReadAlike (normalizeFilter filter) caller now first second :=
  alike.readAlike (Or.inl contexts)

/-- Nor are the contexts: which ones are attached does not show either, for a
filter that is marked explicit when it names some.  Governed reads leave out
memories without an active context, so whether there is one counts as seen. -/
theorem redaction_hides_contexts {first second : StoredMemory}
    (alike : LooksAlike caller first second) (governed : first.governed = second.governed)
    (named : filter.namesContextsExplicitly) :
    ReadAlike (normalizeFilter filter) caller now first second := by
  have normalizedNamed : (normalizeFilter filter).namesContextsExplicitly := named
  exact alike.readAlike (Or.inr ⟨normalizedNamed, governed⟩)

/-- The filters of the server and the browser are marked so. -/
theorem redaction_hides_selected_contexts {first second : StoredMemory}
    (alike : LooksAlike caller first second) (governed : first.governed = second.governed)
    (filter : MemoryFilter) (ids : List ContextId) :
    ReadAlike (normalizeFilter (filter.withContexts ids)) caller now first second ∧
      ReadAlike (normalizeFilter (filter.withLegacyContexts ids)) caller now first second :=
  ⟨redaction_hides_contexts alike governed (filter.namesContextsExplicitly_withContexts ids),
    redaction_hides_contexts alike governed (filter.namesContextsExplicitly_withLegacyContexts ids)⟩

end Callers

/-- A memory of which other agents see the provenance only. -/
def concealed (content : String) (tags : List String) (contexts : List AttachedContext) :
    StoredMemory where
  columns :=
    { Memory.plain ⟨1⟩ "owner" content 0 with
      accessPolicy := .redacted [.provenance]
      tags := tags }
  entities := []
  contexts := contexts
  vector := none

theorem checkAccessLevel_concealed (content : String) (tags : List String)
    (contexts : List AttachedContext) :
    (concealed content tags contexts).columns.checkAccessLevel (some "reader") = .redacted := by
  have level : accessLevel { Provenance.default with sourceAgent := some "owner" }
      (.redacted [.provenance]) (some "reader") = .redacted := by decide
  exact level

theorem looksAlike_concealed {content other : String} {tags otherTags : List String}
    {contexts otherContexts : List AttachedContext} :
    LooksAlike (some "reader") (concealed content tags contexts)
      (concealed other otherTags otherContexts) where
  policy := rfl
  expiresAt := rfl
  supersededBy := rfl
  full := by
    rintro (level | level) <;> rw [checkAccessLevel_concealed] at level <;> cases level
  redacted := by
    intro _
    refine ⟨⟨rfl, rfl, rfl, rfl, rfl⟩, fun field fieldMem => ?_⟩
    rw [show field = .provenance from List.mem_singleton.mp fieldMem]
    rfl

/-- A filter on one tag. -/
def taggedFilter (tag : String) : MemoryFilter :=
  { MemoryFilter.default with tags := some [tag] }

theorem redaction_noninterference_hidden_tag :
    @whereClause asciiHost (taggedFilter "secret") (some "reader") 0
        (concealed "hidden" ["secret"] []) ≠
      @whereClause asciiHost (taggedFilter "secret") (some "reader") 0
        (concealed "other" [] []) ∧
    (@listOutcome asciiHost (@normalizeFilter asciiHost (taggedFilter "secret")) (some "reader") 0
        (concealed "hidden" ["secret"] [])).map Memory.sanitizeForWire =
      (@listOutcome asciiHost (@normalizeFilter asciiHost (taggedFilter "secret")) (some "reader") 0
        (concealed "other" [] [])).map Memory.sanitizeForWire := by
  have alike : LooksAlike (some "reader") (concealed "hidden" ["secret"] [])
      (concealed "other" [] []) := looksAlike_concealed
  have equal := @redaction_noninterference asciiHost (some "reader") (taggedFilter "secret") 0
    _ _ alike rfl
  exact ⟨by decide, @ReadAlike.list asciiHost _ _ _ _ _ equal⟩

end LocalHold
