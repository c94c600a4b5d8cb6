import LocalHold.Store.Hydration
import LocalHold.Store.VectorSearch

/-!
# Late hydration

The full-text and the vector path load the entities of a page either before the
filter, when the filter tests them, or after it, for the rows that are left;
then they apply the access policy once more.  Both orders return what loading
all entities first would return.
-/

namespace LocalHold

open Relational Paging

section Paths

variable [Host] {β γ δ : Type}

/-! ## The shared part of the two paths -/

/-- The content gate and the filter on a fetched row. -/
def searchableEntry (filter : MemoryFilter) (caller : Option String) (now : Instant)
    (entry : Memory × β) : Option (Memory × β) :=
  if entry.1.contentSearchableBy caller then
    (applyAccessPolicyForFilter entry.1 filter caller now).map fun memory => (memory, entry.2)
  else
    none

omit [Host] in
/-- The access policy on a row that is returned. -/
def shownEntry (caller : Option String) (entry : Memory × β) : Option (Memory × β) :=
  (entry.1.applyAccessPolicy caller).map fun memory => (memory, entry.2)

omit [Host] in
/-- Hydrate before or after the selection of the visible rows, then apply the
access policy. -/
def Db.lateHydration (db : Db) (filter : MemoryFilter) (caller : Option String)
    (select : List (Memory × β) → List (Memory × γ)) (rows : List (Memory × β)) :
    List (Memory × γ) :=
  let filterNeedsEntities := needsEntityHydration filter
  let rows := if filterNeedsEntities then db.hydrateEntitiesForRankedMemories rows else rows
  let visible := select rows
  let visible :=
    if !visible.isEmpty && !filterNeedsEntities then db.hydrateEntitiesForRankedMemories visible
    else visible
  visible.filterMap (shownEntry caller)

/-- One page of `fts_search_scan`, after `taken` results. -/
def Db.ftsScanPage (db : Db) (filter : MemoryFilter) (caller : Option String) (now : Instant)
    (limit taken : Nat) (ranked : List (Memory × δ)) : List (SearchResult δ) :=
  (db.lateHydration filter caller (takeUntil limit (searchableEntry filter caller now) taken)
    ranked).map fun entry => ⟨entry.1, some entry.2⟩

/-- The memories and ranks that the full-text query returns, as they are
fetched. -/
def Db.rankedMemories [LinearOrder δ] (db : Db) (ranking : MemoryRow → Option δ)
    (filter : MemoryFilter) (caller : Option String) (now : Instant) : List (Memory × δ) :=
  (db.rankedRows ranking filter caller now).map fun row => (row.1.columns, row.2)

/-! ## The vector path -/

/-- `PostFilterContext`. -/
structure PostFilterContext (δ : Type) where
  filter : MemoryFilter
  caller : Option String
  now : Instant
  maxDistance : Option δ

omit [Host] in
/-- `hydrate_candidates`. -/
def Db.hydrateCandidates (db : Db) (candidates : List (VectorHit δ)) : List (Memory × MemoryId) :=
  (db.memories.select fun row => (candidates.map VectorHit.memoryId).contains row.id).map
    fun row => (row.toMemory, row.id)

omit [Host] in
/-- The map of distances. -/
def distanceOf (candidates : List (VectorHit δ)) : MemoryId → Option δ :=
  collect (candidates.map fun hit => (hit.memoryId, hit.distance))

section Distances

variable [LE δ] [DecidableRel (α := δ) (· ≤ ·)]

/-- The distance threshold, the content gate and the filter on a hydrated row. -/
def PostFilterContext.accept (ctx : PostFilterContext δ) (candidates : List (VectorHit δ))
    (entry : Memory × MemoryId) : Option (Memory × Option δ) :=
  let distance := distanceOf candidates entry.2
  if ctx.maxDistance.all fun threshold => distance.any fun d => decide (d ≤ threshold) then
    searchableEntry ctx.filter ctx.caller ctx.now (entry.1, distance)
  else
    none

/-- `post_filter_results`. -/
def Db.postFilterResults (db : Db) (ctx : PostFilterContext δ) (results : List (SearchResult δ))
    (hydrated : List (Memory × MemoryId)) (candidates : List (VectorHit δ)) :
    List (SearchResult δ) :=
  results ++
    (db.lateHydration ctx.filter ctx.caller (List.filterMap (ctx.accept candidates))
      hydrated).map fun entry => ⟨entry.1, entry.2⟩

end Distances

/-! ## One row -/

section OneRow

variable {filter : MemoryFilter} {caller : Option String} {now : Instant}

theorem searchableEntry_shown {entry visible : Memory × β}
    (accepted : searchableEntry filter caller now entry = some visible) :
    entry.1.applyAccessPolicy caller = some visible.1 ∧ visible.2 = entry.2 := by
  unfold searchableEntry at accepted
  split at accepted
  · obtain ⟨view, isAccepted, rfl⟩ := Option.map_eq_some_iff.mp accepted
    exact ⟨applyAccessPolicyForFilter_shown isAccepted, rfl⟩
  · cases accepted

theorem shownEntry_of_searchable {entry visible : Memory × β}
    (accepted : searchableEntry filter caller now entry = some visible) :
    shownEntry caller visible = some visible := by
  rw [shownEntry, Memory.applyAccessPolicy_view (searchableEntry_shown accepted).1]
  rfl

/-- A row that is hydrated after the filter ends like one hydrated before it. -/
theorem searchableEntry_late (noEntities : needsEntityHydration filter = false)
    (entry : Memory × β) (late : List Entity) :
    ((searchableEntry filter caller now entry).bind fun visible =>
        shownEntry caller (visible.1.withEntities late, visible.2)) =
      searchableEntry filter caller now (entry.1.withEntities late, entry.2) := by
  have searchable : (entry.1.withEntities late).contentSearchableBy caller =
      entry.1.contentSearchableBy caller := rfl
  have hydrated := @applyAccessPolicyForFilter_late caller _ filter now noEntities entry.1
    entry.1.entities late
  rw [Memory.withEntities_entities] at hydrated
  rw [searchableEntry, searchableEntry, searchable, ← hydrated]
  split
  · rw [Option.bind_map, Option.map_bind]
    rfl
  · rfl

omit [Host] in
theorem applyAccessPolicy_bare {memory view : Memory} (bare : memory.entities = [])
    (shown : memory.applyAccessPolicy caller = some view) : view.entities = [] := by
  unfold Memory.applyAccessPolicy at shown
  split at shown
  · cases shown
    exact bare
  · cases shown
    simp [Memory.redacted, bare]
  · cases shown

end OneRow

/-! ## A list of rows -/

section Rows

variable {db : Db} {filter : MemoryFilter} {caller : Option String} {now : Instant}

omit [Host] in
theorem hydrateEntitiesForRankedMemories_eq {rows : List (Memory × β)}
    (distinct : (rows.map fun entry => entry.1.id).Nodup)
    (bare : ∀ entry ∈ rows, entry.1.entities = []) :
    db.hydrateEntitiesForRankedMemories rows =
      rows.map fun entry => (entry.1.withEntities (db.entitiesOf entry.1.id), entry.2) := by
  refine Db.hydrateRows_eq distinct fun entry entryMem => ?_
  have same : entry.1.withEntities entry.1.entities = entry.1 := entry.1.withEntities_entities
  rw [bare entry entryMem] at same
  rw [same]

/-- What a selection of visible rows does: it selects row by row, keeps the
memories of the rows it selects, and can be finished row by row. -/
structure SelectsRows (select : (Memory × β → Option (Memory × γ)) → List (Memory × β) →
    List (Memory × γ)) : Prop where
  sublist : ∀ accept rows, (select accept rows).Sublist (rows.filterMap accept)
  map : ∀ accept prepare rows,
    select accept (rows.map prepare) = select (fun row => accept (prepare row)) rows
  finish : ∀ accept (complete : Memory × γ → Option (Memory × γ)) rows,
    (∀ row visible, accept row = some visible → (complete visible).isSome) →
      (select accept rows).filterMap complete =
        select (fun row => (accept row).bind complete) rows

omit [Host] in
theorem selectsRows_filterMap : SelectsRows (β := β) (γ := γ) List.filterMap where
  sublist _ _ := List.Sublist.refl _
  map _ _ _ := List.filterMap_map
  finish _ _ _ _ := List.filterMap_filterMap

omit [Host] in
theorem selectsRows_takeUntil (limit taken : Nat) :
    SelectsRows (β := β) (γ := γ) fun accept rows => takeUntil limit accept taken rows where
  sublist accept rows := takeUntil_sublist limit accept taken rows
  map accept prepare rows := takeUntil_map limit accept prepare taken rows
  finish _ _ rows always := filterMap_takeUntil always limit taken rows

/-- A test of rows: something about the row, then the content gate and the
filter. -/
def gatedEntry (gate : β → Option γ) (filter : MemoryFilter) (caller : Option String)
    (now : Instant) (entry : Memory × β) : Option (Memory × γ) :=
  (gate entry.2).bind fun extra => searchableEntry filter caller now (entry.1, extra)

theorem gatedEntry_shown {gate : β → Option γ} {entry : Memory × β} {visible : Memory × γ}
    (accepted : gatedEntry gate filter caller now entry = some visible) :
    ∃ extra, searchableEntry filter caller now (entry.1, extra) = some visible := by
  obtain ⟨extra, _, searchable⟩ := Option.bind_eq_some_iff.mp accepted
  exact ⟨extra, searchable⟩

/-- Late hydration of a page of distinct memories selects and returns what
hydrating the page first returns. -/
theorem Db.lateHydration_eq {select : (Memory × β → Option (Memory × γ)) → List (Memory × β) →
      List (Memory × γ)} (selects : SelectsRows select) (gate : β → Option γ)
    {rows : List (Memory × β)} (distinct : (rows.map fun entry => entry.1.id).Nodup)
    (bare : ∀ entry ∈ rows, entry.1.entities = []) :
    db.lateHydration filter caller (select (gatedEntry gate filter caller now)) rows =
      select (gatedEntry gate filter caller now) (db.hydrateEntitiesForRankedMemories rows) := by
  have accepted_id {entry : Memory × β} {visible : Memory × γ}
      (accepted : gatedEntry gate filter caller now entry = some visible) :
      visible.1.id = entry.1.id := by
    obtain ⟨extra, searchable⟩ := gatedEntry_shown accepted
    exact Memory.applyAccessPolicy_id (searchableEntry_shown searchable).1
  rw [Db.lateHydration]
  cases needed : needsEntityHydration filter with
  | true =>
      simp only [if_true, Bool.not_true, Bool.and_false, Bool.false_eq_true, if_false]
      have shown (entry : Memory × β) : (gatedEntry gate filter caller now entry).bind
          (shownEntry caller) = gatedEntry gate filter caller now entry := by
        cases accepted : gatedEntry gate filter caller now entry with
        | none => rfl
        | some visible =>
            obtain ⟨extra, searchable⟩ := gatedEntry_shown accepted
            exact shownEntry_of_searchable searchable
      rw [selects.finish]
      · simp only [shown]
      · intro entry visible accepted
        obtain ⟨extra, searchable⟩ := gatedEntry_shown accepted
        rw [shownEntry_of_searchable searchable]
        rfl
  | false =>
      have distinctVisible : ((select (gatedEntry gate filter caller now) rows).map fun entry =>
          entry.1.id).Nodup :=
        distinct.sublist (((selects.sublist _ _).map _).trans
          (map_filterMap_sublist (fun entry visible => accepted_id) rows))
      have bareVisible : ∀ visible ∈ select (gatedEntry gate filter caller now) rows,
          visible.1.entities = [] := by
        intro visible visibleMem
        obtain ⟨entry, entryMem, accepted⟩ :=
          List.mem_filterMap.mp ((selects.sublist _ _).subset visibleMem)
        obtain ⟨extra, searchable⟩ := gatedEntry_shown accepted
        exact applyAccessPolicy_bare (bare entry entryMem) (searchableEntry_shown searchable).1
      have hydrated := @hydrateEntitiesForRankedMemories_eq _ db _ distinctVisible bareVisible
      have hydrateVisible : (if !(select (gatedEntry gate filter caller now) rows).isEmpty &&
            !false then
            db.hydrateEntitiesForRankedMemories (select (gatedEntry gate filter caller now) rows)
          else select (gatedEntry gate filter caller now) rows) =
          (select (gatedEntry gate filter caller now) rows).map fun entry =>
            (entry.1.withEntities (db.entitiesOf entry.1.id), entry.2) := by
        split
        · exact hydrated
        case isFalse empty =>
          have none : select (gatedEntry gate filter caller now) rows = [] := by simpa using empty
          rw [none]
          rfl
      simp only [Bool.false_eq_true, if_false]
      rw [hydrateVisible, List.filterMap_map, selects.finish,
        hydrateEntitiesForRankedMemories_eq distinct bare, selects.map]
      · congr 1
        funext entry
        cases gate : gate entry.2 with
        | none => simp [gatedEntry, gate]
        | some extra =>
            simp only [gatedEntry, gate, Option.bind_some]
            rw [← searchableEntry_late needed (entry.1, extra)]
            cases accepted : searchableEntry filter caller now (entry.1, extra) with
            | none => rfl
            | some visible =>
                have sameId := Memory.applyAccessPolicy_id (searchableEntry_shown accepted).1
                simp only [Option.bind_some, Function.comp_apply, sameId]
      · intro entry visible accepted
        obtain ⟨extra, searchable⟩ := gatedEntry_shown accepted
        have again := Memory.applyAccessPolicy_view (searchableEntry_shown searchable).1
        rw [Function.comp_apply, shownEntry, Option.isSome_map,
          Memory.isSome_applyAccessPolicy_withEntities, again]
        rfl

end Rows

/-! ## Early hydration -/

section Early

variable {db : Db} {filter : MemoryFilter} {caller : Option String} {now : Instant}

/-- The decision does not wait for entities that the filter does not test. -/
theorem isSome_fetched (stored : StoredMemory) :
    (applyAccessPolicyForFilter (stored.fetched filter) filter caller now).isSome =
      (acceptedView filter caller now stored).isSome := by
  cases needed : needsEntityHydration filter with
  | true =>
      have fetched : stored.fetched filter = stored.hydrated := by
        simp [StoredMemory.fetched, StoredMemory.hydrated, needed]
      rw [fetched, acceptedView]
  | false =>
      have fetched : stored.fetched filter = stored.columns.withEntities [] := by
        simp [StoredMemory.fetched, needed]
      have late := @applyAccessPolicyForFilter_late caller _ filter now needed stored.columns []
        stored.entities
      rw [fetched, acceptedView, StoredMemory.hydrated, ← late]
      cases accepted : applyAccessPolicyForFilter (stored.columns.withEntities []) filter caller
          now with
      | none => rfl
      | some view =>
          have again := Memory.applyAccessPolicy_view (applyAccessPolicyForFilter_shown accepted)
          rw [Option.bind_some, Memory.isSome_applyAccessPolicy_withEntities, again]

theorem listOutcome_eq (stored : StoredMemory) :
    listOutcome filter caller now stored =
      if whereClause filter caller now stored then acceptedView filter caller now stored
      else none := by
  rw [listOutcome, acceptedView]
  congr 1
  cases accepted : applyAccessPolicyForFilter stored.hydrated filter caller now with
  | none => rfl
  | some view => exact (acceptedView_shown accepted).1

theorem textOutcome_eq (query : String) (stored : StoredMemory) :
    textOutcome query filter caller now stored =
      if likeContains stored.columns.content query && whereClause filter caller now stored then
        searchableView filter caller now stored
      else none := by
  rw [textOutcome, searchableView, acceptedView]
  congr 1
  cases accepted : applyAccessPolicyForFilter stored.hydrated filter caller now with
  | none => simp
  | some view =>
      obtain ⟨again, _, searchable⟩ := acceptedView_shown accepted
      rw [Option.bind_some, searchable, again]

/-- Hydrating a fetched row first shows the view of the stored memory. -/
theorem searchableEntry_stored (row : MemoryRow) (extra : β) :
    searchableEntry filter caller now (row.toMemory.withEntities (db.entitiesOf row.id), extra) =
      (searchableView filter caller now (db.stored row)).map fun memory => (memory, extra) := by
  have searchable : (row.toMemory.withEntities (db.entitiesOf row.id)).contentSearchableBy caller =
      (db.stored row).columns.contentSearchableBy caller := rfl
  rw [searchableEntry, searchableView, searchable]
  split
  · rfl
  · rfl

theorem searchableEntry_eq_gated :
    (searchableEntry filter caller now : Memory × β → Option (Memory × β)) =
      gatedEntry some filter caller now :=
  rfl

/-- A full-text page returns the views of the stored memories with their
entities. -/
theorem Db.ftsScanPage_eq [LinearOrder δ] (ranking : MemoryRow → Option δ)
    (size offset limit taken : Nat) :
    db.ftsScanPage filter caller now limit taken
        (page (db.rankedMemories ranking filter caller now) size offset) =
      takeUntil limit (fun row => (searchableView filter caller now row.1).map fun memory =>
          (⟨memory, some row.2⟩ : SearchResult δ)) taken
        (page (db.rankedRows ranking filter caller now) size offset) := by
  have pageOf {α ρ : Type} (view : ρ → α) (rows : List ρ) :
      page (rows.map view) size offset = (page rows size offset).map view := by
    simp [page, List.map_take, List.map_drop]
  have distinct : ((page (db.rankedMemories ranking filter caller now) size offset).map
      fun entry => entry.1.id).Nodup := by
    have whole : ((db.rankedRows ranking filter caller now).map (·.1.columns.id)).Nodup :=
      db.nodup_rankedRows ranking
    rw [Db.rankedMemories, pageOf, List.map_map]
    exact whole.sublist (((List.take_sublist _ _).trans (List.drop_sublist _ _)).map _)
  have bare : ∀ entry ∈ page (db.rankedMemories ranking filter caller now) size offset,
      entry.1.entities = [] := by
    intro entry entryMem
    obtain ⟨row, rowMem, rfl⟩ := List.mem_map.mp (List.mem_of_mem_drop (List.mem_of_mem_take entryMem))
    obtain ⟨ranked, _, rfl⟩ := List.mem_map.mp rowMem
    rfl
  rw [Db.ftsScanPage, searchableEntry_eq_gated,
    Db.lateHydration_eq (selectsRows_takeUntil limit taken) some distinct bare,
    hydrateEntitiesForRankedMemories_eq distinct bare, takeUntil_map, ← List.filterMap_eq_map,
    filterMap_takeUntil fun _ _ _ => rfl]
  rw [Db.rankedMemories, Db.rankedRows, List.map_map, pageOf, pageOf, takeUntil_map, takeUntil_map]
  congr 1
  funext ranked
  have stored := @searchableEntry_stored _ _ db filter caller now ranked.1 ranked.2
  simp only [← searchableEntry_eq_gated]
  change (searchableEntry filter caller now (ranked.1.toMemory.withEntities
    (db.entitiesOf ranked.1.id), ranked.2)).bind _ = _
  rw [stored, Option.bind_map]
  cases searchableView filter caller now (db.stored ranked.1) with
  | none => rfl
  | some view => rfl

variable [LE δ] [DecidableRel (α := δ) (· ≤ ·)]

/-- Whether a candidate lies within the distance threshold, with its distance. -/
def PostFilterContext.near (ctx : PostFilterContext δ) (candidates : List (VectorHit δ))
    (id : MemoryId) : Option (Option δ) :=
  if ctx.maxDistance.all fun threshold =>
      (distanceOf candidates id).any fun d => decide (d ≤ threshold) then
    some (distanceOf candidates id)
  else
    none

theorem PostFilterContext.accept_eq_gated (ctx : PostFilterContext δ)
    (candidates : List (VectorHit δ)) :
    ctx.accept candidates = gatedEntry (ctx.near candidates) ctx.filter ctx.caller ctx.now := by
  funext entry
  simp only [PostFilterContext.accept, gatedEntry, PostFilterContext.near]
  split
  · rfl
  · rfl

/-- The vector path returns the views of the stored memories with their
entities. -/
theorem Db.postFilterResults_eq (ctx : PostFilterContext δ) (results : List (SearchResult δ))
    (candidates : List (VectorHit δ)) :
    db.postFilterResults ctx results (db.hydrateCandidates candidates) candidates =
      results ++
        (db.memories.select fun row =>
          (candidates.map VectorHit.memoryId).contains row.id).filterMap fun row =>
            (ctx.near candidates row.id).bind fun distance =>
              (searchableView ctx.filter ctx.caller ctx.now (db.stored row)).map fun memory =>
                ⟨memory, distance⟩ := by
  have distinct : ((db.hydrateCandidates candidates).map fun entry => entry.1.id).Nodup := by
    rw [Db.hydrateCandidates, List.map_map]
    exact db.memories.nodup.sublist (List.filter_sublist.map _)
  have bare : ∀ entry ∈ db.hydrateCandidates candidates, entry.1.entities = [] := by
    intro entry entryMem
    obtain ⟨row, _, rfl⟩ := List.mem_map.mp entryMem
    rfl
  rw [Db.postFilterResults, PostFilterContext.accept_eq_gated,
    Db.lateHydration_eq selectsRows_filterMap _ distinct bare,
    hydrateEntitiesForRankedMemories_eq distinct bare, Db.hydrateCandidates, List.map_map,
    List.filterMap_map, List.map_filterMap]
  congr 2
  funext row
  have stored (distance : Option δ) :=
    @searchableEntry_stored _ _ db ctx.filter ctx.caller ctx.now row distance
  cases near : ctx.near candidates row.id with
  | none => simp [gatedEntry, near]
  | some distance =>
      simp only [gatedEntry, near, Option.bind_some, Function.comp_apply]
      refine (congrArg (Option.map _) (stored distance)).trans ?_
      rw [Option.map_map]
      rfl

end Early

/-- Filtering and redacting a memory before its entities are loaded decides and
shows what loading them first does, on every path: `acceptedView` and
`searchableView` hydrate first.  The paths that hydrate first apply the access
policy a second time, which changes nothing. -/
theorem late_hydration_eq_early (db : Db) (filter : MemoryFilter) (caller : Option String)
    (now : Instant) :
    (∀ stored : StoredMemory,
      (countOutcome filter caller now stored).isSome =
        (whereClause filter caller now stored &&
          (acceptedView filter caller now stored).isSome) ∧
      searchedOutcome filter caller now stored = searchableView filter caller now stored ∧
      listOutcome filter caller now stored =
        (if whereClause filter caller now stored then acceptedView filter caller now stored
          else none) ∧
      ∀ query, textOutcome query filter caller now stored =
        if likeContains stored.columns.content query && whereClause filter caller now stored then
          searchableView filter caller now stored
        else none) ∧
    (∀ {δ : Type} [LinearOrder δ] (ranking : MemoryRow → Option δ)
      (size offset limit taken : Nat),
      db.ftsScanPage filter caller now limit taken
          (page (db.rankedMemories ranking filter caller now) size offset) =
        takeUntil limit (fun row => (searchableView filter caller now row.1).map fun memory =>
            (⟨memory, some row.2⟩ : SearchResult δ)) taken
          (page (db.rankedRows ranking filter caller now) size offset)) ∧
    (∀ {δ : Type} [LinearOrder δ] (maxDistance : Option δ) (results : List (SearchResult δ))
      (candidates : List (VectorHit δ)),
      let ctx : PostFilterContext δ := ⟨filter, caller, now, maxDistance⟩
      db.postFilterResults ctx results (db.hydrateCandidates candidates) candidates =
        results ++
          (db.memories.select fun row =>
            (candidates.map VectorHit.memoryId).contains row.id).filterMap fun row =>
              (ctx.near candidates row.id).bind fun distance =>
                (searchableView filter caller now (db.stored row)).map fun memory =>
                  ⟨memory, distance⟩) ∧
    ∀ memory : Memory,
      (memory.applyAccessPolicy caller).bind (fun view => view.applyAccessPolicy caller) =
        memory.applyAccessPolicy caller := by
  refine ⟨fun stored => ⟨?_, ?_, ?_, ?_⟩, ?_, ?_, ?_⟩
  · rw [countOutcome]
    cases whereClause filter caller now stored with
    | false => rfl
    | true => exact isSome_fetched stored
  · exact searchedOutcome_eq stored
  · exact listOutcome_eq stored
  · exact fun query => textOutcome_eq query stored
  · exact fun ranking size offset limit taken => Db.ftsScanPage_eq ranking size offset limit taken
  · exact fun maxDistance results candidates => Db.postFilterResults_eq _ results candidates
  · intro memory
    cases shown : memory.applyAccessPolicy caller with
    | none => rfl
    | some view => exact Memory.applyAccessPolicy_view shown

end Paths

end LocalHold
