import LocalHold.MachineIntegers
import LocalHold.Paging.Scan
import LocalHold.Relational.Query
import LocalHold.Store.Crud
import LocalHold.Store.Embedding
import LocalHold.Store.NonInterference

/-!
# Paged scans of memories

The loops of `query.rs`, `admin.rs` and `search.rs` that read memories page
after page, test the rows in Rust and keep the first that pass.  The rows a
page leaves out in Rust do not move the offset of the next page, so the loops
return what a single query without a limit would.
-/

namespace LocalHold

open Relational Paging

/-! ## Limits -/

/-- `OVERFETCH_FACTOR`. -/
def overfetchFactor : Nat := 4

/-- `MAX_SCAN_ROWS`. -/
def maxScanRows : Nat := 10000

/-- `DEFAULT_LIST_LIMIT`. -/
def defaultListLimit : Nat := 100

/-- `usize_to_i64`. -/
def usizeToI64 (value : Nat) (context : String) : Except StoreError Int :=
  if value < i64Range then
    .ok value
  else
    .error (.database (context ++ " " ++ toString value ++
      " exceeds i64 range: out of range integral type conversion attempted"))

/-- The page size for a limit: a saturating product, at least one. -/
def overfetchPageSize (limit : Nat) : Nat :=
  max (min (limit * overfetchFactor) (usizeRange - 1)) 1

/-! ## The loop -/

/-- `ScanConfig`. -/
structure ScanConfig where
  filter : MemoryFilter
  caller : Option String
  now : Instant
  pageSize : Nat

section Loops

variable [Host]

/-- The rows that the query of a scan selects, newest first, without a limit. -/
def Db.scanRows (db : Db) (cfg : ScanConfig) (extraWhere : StoredMemory → Bool) :
    List StoredMemory :=
  (orderBy (fun first second => createdBefore second first)
    (db.memories.select fun row =>
      extraWhere (db.stored row) && whereClause cfg.filter cfg.caller cfg.now (db.stored row))).map
    db.stored

/-- A row of a page, with its entities when the scan or the filter needs them. -/
def ScanConfig.hydrate (cfg : ScanConfig) (hydrateEntities : Bool) (stored : StoredMemory) :
    Memory :=
  stored.columns.withEntities
    (if hydrateEntities || needsEntityHydration cfg.filter then stored.entities else [])

/-- A row of a page that passes the test in Rust. -/
def ScanConfig.accept (cfg : ScanConfig) (hydrateEntities : Bool) (stored : StoredMemory) :
    Option Memory :=
  applyAccessPolicyForFilter (cfg.hydrate hydrateEntities stored) cfg.filter cfg.caller cfg.now

/-- `paged_scan_loop`.  The page size is converted in every round with the same
result, and the offsets stay below `MAX_SCAN_ROWS`. -/
def pagedScanLoop {σ : Type} (db : Db) (cfg : ScanConfig) (extraWhere : StoredMemory → Bool)
    (hydrateEntities : Bool) (accumulate : Consumer StoreError σ Memory) (state : σ) :
    Except StoreError σ := do
  let _ ← usizeToI64 cfg.pageSize "page_size"
  scan maxScanRows cfg.pageSize (db.scanRows cfg extraWhere)
    (filtered (cfg.accept hydrateEntities) accumulate) 0 state

/-- `ScanConfig::run_hydrated`, with an accumulator for one memory. -/
def ScanConfig.runHydrated {σ : Type} (cfg : ScanConfig) (db : Db)
    (accumulate : σ → Memory → σ × Bool) (state : σ) : Except StoreError σ :=
  pagedScanLoop db cfg (fun _ => true) true (rowByRow accumulate) state

/-- `ScanConfig::run_pages`, with an accumulator for one page. -/
def ScanConfig.runPages {σ : Type} (cfg : ScanConfig) (db : Db)
    (accumulate : Consumer StoreError σ Memory) (state : σ) : Except StoreError σ :=
  pagedScanLoop db cfg (fun _ => true) false accumulate state

/-- `ScanConfig::run_with_extra_hydrated`. -/
def ScanConfig.runWithExtraHydrated {σ : Type} (cfg : ScanConfig) (db : Db)
    (extraWhere : StoredMemory → Bool) (accumulate : σ → Memory → σ × Bool) (state : σ) :
    Except StoreError σ :=
  pagedScanLoop db cfg extraWhere true (rowByRow accumulate) state

/-- `list_with_paging`; the limit is the one of the filter. -/
def listWithPaging (db : Db) (filter : MemoryFilter) (limit : Option Nat) (caller : Option String)
    (now : Instant) : Except StoreError (List Memory) :=
  let limit := limit.getD defaultListLimit
  if limit = 0 then
    .ok []
  else
    ScanConfig.runHydrated ⟨filter, caller, now, overfetchPageSize limit⟩ db
      (takeStep limit fun memory => memory.applyAccessPolicy caller) []

/-- `COUNT_PAGE_SIZE`. -/
def countPageSize : Nat := 500

/-- The scan of `count_with_access_filter`; what is counted of one memory is a
parameter. -/
def countScan {σ : Type} (db : Db) (filter : MemoryFilter) (caller : Option String)
    (now : Instant) (tally : σ → Memory → σ) (state : σ) : Except StoreError σ :=
  ScanConfig.runPages ⟨filter, caller, now, countPageSize⟩ db (tallyPages tally) state

/-- `SearchResult`; the scores that a scan leaves empty are left out. -/
structure SearchResult (δ : Type) where
  memory : Memory
  distance : Option δ

/-- `text_search_scan`. -/
def textSearchScan (δ : Type) (db : Db) (filter : MemoryFilter) (caller : Option String)
    (now : Instant) (limit pageSize : Nat) (query : String) :
    Except StoreError (List (SearchResult δ)) :=
  ScanConfig.runWithExtraHydrated ⟨filter, caller, now, pageSize⟩ db
    (fun stored => likeContains stored.columns.content query)
    (takeStep limit fun memory =>
      if memory.contentSearchableBy caller then
        (memory.applyAccessPolicy caller).map fun visible => ⟨visible, none⟩
      else
        none) []

variable {δ : Type} [LinearOrder δ]

/-- Rows that the full-text query matches, best rank first, then newest first. -/
def Db.rankedRows (db : Db) (ranking : MemoryRow → Option δ) (filter : MemoryFilter)
    (caller : Option String) (now : Instant) : List (StoredMemory × δ) :=
  (orderBy
    (fun first second => decide (first.2 < second.2) ||
      (decide (first.2 = second.2) && createdBefore second.1 first.1))
    ((db.memories.select fun row => whereClause filter caller now (db.stored row)).filterMap
      fun row => (ranking row).map fun rank => (row, rank))).map
    fun entry => (db.stored entry.1, entry.2)

omit [LinearOrder δ] in
/-- The visible rows of a full-text page: searchable, then accepted. -/
def ftsVisible (filter : MemoryFilter) (caller : Option String) (now : Instant)
    (row : StoredMemory × δ) : Option (Memory × StoredMemory × δ) :=
  if (row.1.fetched filter).contentSearchableBy caller then
    (applyAccessPolicyForFilter (row.1.fetched filter) filter caller now).map
      fun memory => (memory, row)
  else
    none

omit [Host] [LinearOrder δ] in
/-- A visible row with its entities, as it is returned. -/
def ftsResult (filter : MemoryFilter) (caller : Option String)
    (entry : Memory × StoredMemory × δ) : Option (SearchResult δ) :=
  let hydrated :=
    if needsEntityHydration filter then entry.1 else entry.1.withEntities entry.2.1.entities
  (hydrated.applyAccessPolicy caller).map fun memory => ⟨memory, some entry.2.2⟩

omit [LinearOrder δ] in
/-- One page of `fts_search_scan`. -/
def ftsPage (filter : MemoryFilter) (caller : Option String) (now : Instant) (limit : Nat) :
    Consumer StoreError (List (SearchResult δ)) (StoredMemory × δ) :=
  fun results rows =>
    let visible := takeUntil limit (ftsVisible filter caller now) results.length rows
    let extended := results ++ visible.filterMap (ftsResult filter caller)
    .ok (extended, decide (extended.length < limit))

/-- `fts_search_scan`.  What the full-text index matches, with which rank, is a
parameter; there is none when the query cannot be prepared.  An empty page is
short and ends the loop. -/
def ftsSearchScan (db : Db) (ranking : Option (MemoryRow → Option δ)) (filter : MemoryFilter)
    (caller : Option String) (now : Instant) (limit : Nat) :
    Except StoreError (List (SearchResult δ)) :=
  let pageSize := overfetchPageSize limit
  match ranking with
  | none => .ok []
  | some rank => do
      let _ ← usizeToI64 pageSize "FTS page size"
      scan maxScanRows pageSize (db.rankedRows rank filter caller now)
        (ftsPage filter caller now limit) 0 []

end Loops

/-! ## Views -/

section Views

variable {caller : Option String}

theorem shown_twice {α : Type} {shown : Prop} {outer inner : Decidable shown}
    (value hidden : α) :
    @ite α shown outer (@ite α shown inner value hidden) hidden =
      @ite α shown inner value hidden := by
  by_cases isShown : shown <;> simp [isShown]

theorem Memory.redacted_redacted (memory : Memory) : memory.redacted.redacted = memory.redacted := by
  simp only [Memory.redacted, Memory.mk.injEq, and_true, true_and]
  exact ⟨shown_twice _ _, shown_twice _ _, shown_twice _ _, shown_twice _ _, shown_twice _ _⟩

/-- Redacting a view with other entities redacts the memory with these. -/
theorem Memory.redacted_withEntities_redacted (memory : Memory) (early late : List Entity) :
    ((memory.withEntities early).redacted.withEntities late).redacted =
      (memory.withEntities late).redacted := by
  simp only [Memory.redacted, Memory.withEntities, Memory.mk.injEq, and_true, true_and]
  exact ⟨shown_twice _ _, shown_twice _ _, shown_twice _ _, shown_twice _ _, rfl⟩

theorem Memory.withEntities_entities (memory : Memory) :
    memory.withEntities memory.entities = memory :=
  rfl

theorem Memory.isSome_applyAccessPolicy_withEntities (memory : Memory) (entities : List Entity) :
    ((memory.withEntities entities).applyAccessPolicy caller).isSome =
      (memory.applyAccessPolicy caller).isSome := by
  simp only [Memory.applyAccessPolicy, Memory.checkAccessLevel_withEntities]
  cases memory.checkAccessLevel caller <;> rfl

/-- A view shows itself. -/
theorem Memory.applyAccessPolicy_view {memory view : Memory}
    (shown : memory.applyAccessPolicy caller = some view) :
    view.applyAccessPolicy caller = some view := by
  cases level : memory.checkAccessLevel caller with
  | full =>
      simp only [Memory.applyAccessPolicy, level, Option.some.injEq] at shown
      subst shown
      simp [Memory.applyAccessPolicy, level]
  | redacted =>
      simp only [Memory.applyAccessPolicy, level, Option.some.injEq] at shown
      subst shown
      rw [applyAccessPolicy_of_redacted (Memory.checkAccessLevel_redacted level),
        Memory.redacted_redacted]
  | denied => simp [Memory.applyAccessPolicy, level] at shown

theorem Memory.contentSearchableBy_view {memory view : Memory}
    (shown : memory.applyAccessPolicy caller = some view) :
    view.contentSearchableBy caller = memory.contentSearchableBy caller := by
  cases level : memory.checkAccessLevel caller with
  | full =>
      simp only [Memory.applyAccessPolicy, level, Option.some.injEq] at shown
      rw [shown]
  | redacted =>
      simp only [Memory.applyAccessPolicy, level, Option.some.injEq] at shown
      subst shown
      rw [Memory.contentSearchableBy_of_redacted level,
        Memory.contentSearchableBy_of_redacted (Memory.checkAccessLevel_redacted level)]
      rfl
  | denied => simp [Memory.applyAccessPolicy, level] at shown

theorem Memory.applyAccessPolicy_id {memory view : Memory}
    (shown : memory.applyAccessPolicy caller = some view) : view.id = memory.id := by
  unfold Memory.applyAccessPolicy at shown
  split at shown
  · cases shown
    rfl
  · cases shown
    rfl
  · cases shown

/-- A view with entities that were added late is the view of the memory with
these, and differs from the early view in the entities only. -/
theorem Memory.applyAccessPolicy_late (memory : Memory) (early late : List Entity) :
    ((memory.withEntities early).applyAccessPolicy caller = none ∧
      (memory.withEntities late).applyAccessPolicy caller = none) ∨
    ∃ view entities, (memory.withEntities early).applyAccessPolicy caller = some view ∧
      (memory.withEntities late).applyAccessPolicy caller = some (view.withEntities entities) ∧
      (view.withEntities late).applyAccessPolicy caller = some (view.withEntities entities) := by
  have earlyLevel := memory.checkAccessLevel_withEntities early caller
  have lateLevel := memory.checkAccessLevel_withEntities late caller
  cases level : memory.checkAccessLevel caller with
  | full =>
      rw [level] at earlyLevel lateLevel
      have shown : (memory.withEntities late).applyAccessPolicy caller =
          some (memory.withEntities late) := by
        simp only [Memory.applyAccessPolicy, lateLevel]
      exact Or.inr ⟨memory.withEntities early, late,
        by simp only [Memory.applyAccessPolicy, earlyLevel], shown, shown⟩
  | redacted =>
      rw [level] at earlyLevel lateLevel
      have viewLevel : ((memory.withEntities early).redacted.withEntities late).checkAccessLevel
          caller = .redacted := Memory.checkAccessLevel_redacted earlyLevel
      refine Or.inr ⟨(memory.withEntities early).redacted,
        (memory.withEntities late).redacted.entities, applyAccessPolicy_of_redacted earlyLevel,
        applyAccessPolicy_of_redacted lateLevel, ?_⟩
      rw [applyAccessPolicy_of_redacted viewLevel, Memory.redacted_withEntities_redacted]
      rfl
  | denied =>
      rw [level] at earlyLevel lateLevel
      exact Or.inl ⟨by simp only [Memory.applyAccessPolicy, earlyLevel],
        by simp only [Memory.applyAccessPolicy, lateLevel]⟩

variable [Host] {filter : MemoryFilter} {now : Instant}

/-- The tests that a view passes before it is returned. -/
def passesFilter (filter : MemoryFilter) (caller : Option String) (now : Instant)
    (memory view : Memory) : Bool :=
  matchesLifecycleFilter memory filter now &&
    !(view.wasRedacted && memory.supersededBy.isSome) &&
    !(view.wasRedacted && filter.explicitContextFilter) &&
    matchesNonAccessFilter view filter now &&
    !(filter.textSearch.isSome && !view.contentSearchableBy caller)

theorem applyAccessPolicyForFilter_eq (memory : Memory) :
    applyAccessPolicyForFilter memory filter caller now =
      (memory.applyAccessPolicy caller).filter (passesFilter filter caller now memory) := by
  cases shown : memory.applyAccessPolicy caller with
  | none => simp [applyAccessPolicyForFilter, shown]
  | some view =>
      simp only [applyAccessPolicyForFilter, shown, Option.filter_some]
      exact refusals_eq _ _ _ _ _ _

theorem passesFilter_withEntities (noEntities : needsEntityHydration filter = false)
    (memory view : Memory) (first second : List Entity) :
    passesFilter filter caller now (memory.withEntities first) (view.withEntities second) =
      passesFilter filter caller now memory view := by
  simp only [needsEntityHydration, Bool.or_eq_false_iff, Option.isSome_eq_false_iff,
    Option.isNone_iff_eq_none] at noEntities
  obtain ⟨⟨noEntity, noneOf⟩, noType⟩ := noEntities
  have free (entities : List Entity) : matchesEntities filter entities = true := by
    simp [matchesEntities, matchesAny, noEntity, noneOf, noType]
  simp only [passesFilter, matchesNonAccessFilter, free]
  rfl

/-- Entities that no filter tests may be added after the test. -/
theorem applyAccessPolicyForFilter_late (noEntities : needsEntityHydration filter = false)
    (memory : Memory) (early late : List Entity) :
    (applyAccessPolicyForFilter (memory.withEntities early) filter caller now).bind
        (fun view => (view.withEntities late).applyAccessPolicy caller) =
      applyAccessPolicyForFilter (memory.withEntities late) filter caller now := by
  rw [applyAccessPolicyForFilter_eq, applyAccessPolicyForFilter_eq]
  rcases memory.applyAccessPolicy_late early late with ⟨earlyNone, lateNone⟩ |
    ⟨view, entities, earlyView, lateView, again⟩
  · rw [earlyNone, lateNone]
    rfl
  · rw [earlyView, lateView, Option.filter_some, Option.filter_some,
      passesFilter_withEntities noEntities memory view late entities,
      ← passesFilter_withEntities noEntities memory view early view.entities,
      Memory.withEntities_entities]
    split
    · exact again
    · rfl

theorem applyAccessPolicyForFilter_shown {memory view : Memory}
    (accepted : applyAccessPolicyForFilter memory filter caller now = some view) :
    memory.applyAccessPolicy caller = some view := by
  rw [applyAccessPolicyForFilter_eq] at accepted
  exact (Option.filter_eq_some_iff.mp accepted).1

end Views

/-! ## Rows -/

section Rows

variable [Host] {db : Db} {filter : MemoryFilter} {caller : Option String} {now : Instant}

/-- What a filtered query returns of a row. -/
def acceptedView (filter : MemoryFilter) (caller : Option String) (now : Instant)
    (stored : StoredMemory) : Option Memory :=
  applyAccessPolicyForFilter stored.hydrated filter caller now

/-- The accepted view of a row whose content the caller may search. -/
def searchableView (filter : MemoryFilter) (caller : Option String) (now : Instant)
    (stored : StoredMemory) : Option Memory :=
  if stored.columns.contentSearchableBy caller then acceptedView filter caller now stored
  else none

theorem acceptedView_shown {stored : StoredMemory} {view : Memory}
    (accepted : acceptedView filter caller now stored = some view) :
    view.applyAccessPolicy caller = some view ∧ view.id = stored.columns.id ∧
      view.contentSearchableBy caller = stored.columns.contentSearchableBy caller := by
  have shown := applyAccessPolicyForFilter_shown accepted
  refine ⟨Memory.applyAccessPolicy_view shown, ?_, ?_⟩
  · exact (Memory.applyAccessPolicy_id shown :)
  · exact (Memory.contentSearchableBy_view shown :)

/-- The content gate, the filter and late hydration show the view of the memory
with its entities. -/
theorem searchedOutcome_eq (stored : StoredMemory) :
    searchedOutcome filter caller now stored = searchableView filter caller now stored := by
  have searchable : (stored.fetched filter).contentSearchableBy caller =
      stored.columns.contentSearchableBy caller := rfl
  unfold searchedOutcome searchableView
  dsimp only
  rw [searchable]
  split
  case isFalse => rfl
  case isTrue =>
    cases needed : needsEntityHydration filter with
    | true =>
        have fetched : stored.fetched filter = stored.hydrated := by
          simp [StoredMemory.fetched, StoredMemory.hydrated, needed]
        rw [fetched, acceptedView]
        cases accepted : applyAccessPolicyForFilter stored.hydrated filter caller now with
        | none => rfl
        | some view =>
            have isAccepted : acceptedView filter caller now stored = some view := accepted
            exact (acceptedView_shown isAccepted).1
    | false =>
        have fetched : stored.fetched filter = stored.columns.withEntities [] := by
          simp [StoredMemory.fetched, needed]
        have late := @applyAccessPolicyForFilter_late caller _ filter now needed stored.columns []
          stored.entities
        rw [fetched, acceptedView, StoredMemory.hydrated, ← late]
        rfl

/-- The full-text path, which adds entities late, returns the same view. -/
theorem ftsVisible_bind_ftsResult {δ : Type} (row : StoredMemory × δ) :
    (ftsVisible filter caller now row).bind (ftsResult filter caller) =
      (searchableView filter caller now row.1).map fun memory => ⟨memory, some row.2⟩ := by
  rw [← searchedOutcome_eq, ftsVisible, searchedOutcome]
  dsimp only
  split
  · rw [Option.bind_map, Option.map_bind]
    rfl
  · rfl

/-- Every visible row of a full-text page is returned. -/
theorem ftsResult_of_visible {δ : Type} {row : StoredMemory × δ}
    {entry : Memory × StoredMemory × δ} (visible : ftsVisible filter caller now row = some entry) :
    (ftsResult filter caller entry).isSome := by
  unfold ftsVisible at visible
  split at visible
  case isFalse => cases visible
  case isTrue =>
    obtain ⟨view, accepted, rfl⟩ := Option.map_eq_some_iff.mp visible
    have again := Memory.applyAccessPolicy_view (applyAccessPolicyForFilter_shown accepted)
    rw [ftsResult, Option.isSome_map]
    dsimp only
    split
    · rw [again]
      rfl
    · rw [Memory.isSome_applyAccessPolicy_withEntities, again]
      rfl

theorem ftsPage_eq {δ : Type} (limit : Nat) :
    (ftsPage filter caller now limit : Consumer StoreError (List (SearchResult δ)) _) =
      takePage limit fun row =>
        (searchableView filter caller now row.1).map fun memory => ⟨memory, some row.2⟩ := by
  funext results rows
  simp only [ftsPage, takePage]
  rw [filterMap_takeUntil fun _ _ visible => ftsResult_of_visible visible]
  simp only [ftsVisible_bind_ftsResult]

theorem Db.nodup_scanRows (cfg : ScanConfig) (extraWhere : StoredMemory → Bool) :
    ((db.scanRows cfg extraWhere).map (·.columns.id)).Nodup := by
  rw [Db.scanRows, List.map_map, ((perm_orderBy _ _).map _).nodup_iff]
  exact db.memories.nodup.sublist (List.filter_sublist.map _)

theorem Db.nodup_rankedRows {δ : Type} [LinearOrder δ] (ranking : MemoryRow → Option δ) :
    ((db.rankedRows ranking filter caller now).map (·.1.columns.id)).Nodup := by
  rw [Db.rankedRows, List.map_map, ((perm_orderBy _ _).map _).nodup_iff]
  refine List.Nodup.sublist (map_filterMap_sublist (fun row shown ranked => ?_) _)
    (db.memories.nodup.sublist (List.filter_sublist.map _))
  obtain ⟨rank, _, rfl⟩ := Option.map_eq_some_iff.mp ranked
  rfl

end Rows

/-! ## Single shot -/

section SingleShot

variable [Host] {db : Db} {filter : MemoryFilter} {caller : Option String} {now : Instant}

omit [Host] in
theorem usizeToI64_ok {value : Nat} (fits : value < i64Range) (context : String) :
    usizeToI64 value context = .ok (value : Int) :=
  if_pos fits

theorem pagedScanLoop_eq {σ : Type} {cfg : ScanConfig} {extraWhere : StoredMemory → Bool}
    {ready : σ → Prop} {accumulate : Consumer StoreError σ Memory} (hydrateEntities : Bool)
    (incremental : Incremental ready accumulate) (positive : 0 < cfg.pageSize)
    (fits : cfg.pageSize < i64Range) (few : (db.scanRows cfg extraWhere).length < maxScanRows)
    {state : σ} (isReady : ready state) :
    pagedScanLoop db cfg extraWhere hydrateEntities accumulate state =
      (accumulate state
        ((db.scanRows cfg extraWhere).filterMap (cfg.accept hydrateEntities))).map Prod.fst := by
  rw [pagedScanLoop, usizeToI64_ok fits]
  have scanned := (incremental.filtered (cfg.accept hydrateEntities)).scan_zero positive
    (Nat.le_of_lt few) isReady
  rw [incremental.filtered_apply _ isReady] at scanned
  exact scanned

/-- A paged scan that keeps the first rows a view shows. -/
theorem pagedScanLoop_takeStep {β : Type} {cfg : ScanConfig} {extraWhere : StoredMemory → Bool}
    (hydrateEntities : Bool) {limit : Nat} (wanted : 0 < limit) (view : Memory → Option β)
    (positive : 0 < cfg.pageSize) (fits : cfg.pageSize < i64Range)
    (few : (db.scanRows cfg extraWhere).length < maxScanRows) :
    pagedScanLoop db cfg extraWhere hydrateEntities (rowByRow (takeStep limit view)) [] =
      .ok ((((db.scanRows cfg extraWhere).filterMap (cfg.accept hydrateEntities)).filterMap
        view).take limit) := by
  rw [pagedScanLoop_eq hydrateEntities (incremental_rowByRow _) positive fits few trivial]
  have kept (rows : List Memory) :
      (allRows (takeStep limit view) [] rows).1 = (rows.filterMap view).take limit :=
    allRows_takeStep wanted rows
  exact congrArg Except.ok (kept _)

omit [Host] in
theorem overfetchPageSize_eq {limit : Nat} (wanted : 0 < limit)
    (fits : limit * overfetchFactor < i64Range) :
    overfetchPageSize limit = limit * overfetchFactor := by
  simp only [overfetchPageSize, overfetchFactor, usizeRange, i64Range] at fits ⊢
  omega

omit [Host] in
theorem overfetchPageSize_fits {limit : Nat} (wanted : 0 < limit)
    (fits : limit * overfetchFactor < i64Range) :
    0 < overfetchPageSize limit ∧ overfetchPageSize limit < i64Range := by
  rw [overfetchPageSize_eq wanted fits]
  exact ⟨Nat.mul_pos wanted (by decide), fits⟩

/-- The second policy check of a list changes no accepted row. -/
theorem listWithPaging_eq {limit : Nat} {chosen : Option Nat}
    (chosenLimit : chosen.getD defaultListLimit = limit) (wanted : 0 < limit)
    (limitFits : limit * overfetchFactor < i64Range)
    (few : (db.scanRows ⟨filter, caller, now, overfetchPageSize limit⟩ fun _ => true).length <
      maxScanRows) :
    listWithPaging db filter chosen caller now =
      .ok (((db.scanRows ⟨filter, caller, now, overfetchPageSize limit⟩ fun _ => true).filterMap
        (acceptedView filter caller now)).take limit) := by
  obtain ⟨positive, fits⟩ := overfetchPageSize_fits wanted limitFits
  rw [listWithPaging, chosenLimit, if_neg (Nat.ne_of_gt wanted), ScanConfig.runHydrated,
    pagedScanLoop_takeStep true wanted _ positive fits few, List.filterMap_filterMap]
  congr 2
  refine List.filterMap_congr fun stored _ => ?_
  have hydrated : ScanConfig.accept ⟨filter, caller, now, overfetchPageSize limit⟩ true stored =
      acceptedView filter caller now stored := rfl
  rw [hydrated]
  cases accepted : acceptedView filter caller now stored with
  | none => rfl
  | some view => exact (acceptedView_shown accepted).1

theorem textSearchScan_eq {δ : Type} {limit pageSize : Nat} (wanted : 0 < limit)
    (positive : 0 < pageSize) (fits : pageSize < i64Range) (query : String)
    (few : (db.scanRows ⟨filter, caller, now, pageSize⟩
      fun stored => likeContains stored.columns.content query).length < maxScanRows) :
    textSearchScan δ db filter caller now limit pageSize query =
      .ok (((db.scanRows ⟨filter, caller, now, pageSize⟩
        fun stored => likeContains stored.columns.content query).filterMap fun stored =>
          (searchableView filter caller now stored).map fun memory => ⟨memory, none⟩).take
            limit) := by
  rw [textSearchScan, ScanConfig.runWithExtraHydrated,
    pagedScanLoop_takeStep true wanted _ positive fits few, List.filterMap_filterMap]
  congr 2
  refine List.filterMap_congr fun stored _ => ?_
  have hydrated : ScanConfig.accept ⟨filter, caller, now, pageSize⟩ true stored =
      acceptedView filter caller now stored := rfl
  rw [hydrated, searchableView]
  cases accepted : acceptedView filter caller now stored with
  | none => simp
  | some view =>
      obtain ⟨again, _, searchable⟩ := acceptedView_shown accepted
      rw [Option.bind_some, searchable, again]
      split
      · rfl
      · rfl

theorem ftsSearchScan_eq {δ : Type} [LinearOrder δ] {limit : Nat} (wanted : 0 < limit)
    (limitFits : limit * overfetchFactor < i64Range) (rank : MemoryRow → Option δ)
    (few : (db.rankedRows rank filter caller now).length < maxScanRows) :
    ftsSearchScan db (some rank) filter caller now limit =
      .ok (((db.rankedRows rank filter caller now).filterMap fun row =>
        (searchableView filter caller now row.1).map fun memory => ⟨memory, some row.2⟩).take
          limit) := by
  obtain ⟨positive, fits⟩ := overfetchPageSize_fits wanted limitFits
  rw [ftsSearchScan, usizeToI64_ok fits, ftsPage_eq]
  have incremental : Incremental _ (takePage limit fun row : StoredMemory × δ =>
      (searchableView filter caller now row.1).map fun memory =>
        (⟨memory, some row.2⟩ : SearchResult δ) : Consumer StoreError _ _) :=
    incremental_takePage limit _
  have room : ([] : List (SearchResult δ)).length < limit := wanted
  have scanned := incremental.scan_zero positive (Nat.le_of_lt few) room
  rw [takePage_eq room] at scanned
  exact scanned

/-- Over a fixed state with fewer rows than a scan may read, the paged loops
return what one query without a limit selects: the rows that pass the test in
Rust, in order, each once, and of these the first `limit`.  The two text paths
keep only rows whose content the caller may search. -/
theorem paged_scans_single_shot {δ : Type} [LinearOrder δ] (db : Db) (filter : MemoryFilter)
    (caller : Option String) (now : Instant) {limit pageSize : Nat} (wanted : 0 < limit)
    (limitFits : limit * overfetchFactor < i64Range) (positive : 0 < pageSize)
    (fits : pageSize < i64Range) :
    (∀ (extraWhere : StoredMemory → Bool) (hydrateEntities : Bool),
      let cfg : ScanConfig := ⟨filter, caller, now, pageSize⟩
      let accepted := (db.scanRows cfg extraWhere).filterMap (cfg.accept hydrateEntities)
      (db.scanRows cfg extraWhere).length < maxScanRows →
        pagedScanLoop db cfg extraWhere hydrateEntities (rowByRow (takeStep limit some)) [] =
          .ok (accepted.take limit) ∧
        (∀ (σ : Type) (tally : σ → Memory → σ) (state : σ),
          pagedScanLoop db cfg extraWhere hydrateEntities (tallyPages tally) state =
            .ok (accepted.foldl tally state)) ∧
        (accepted.map (·.id)).Nodup) ∧
    (∀ chosen : Option Nat, chosen.getD defaultListLimit = limit →
      let rows := db.scanRows ⟨filter, caller, now, overfetchPageSize limit⟩ fun _ => true
      rows.length < maxScanRows →
        listWithPaging db filter chosen caller now =
          .ok ((rows.filterMap (acceptedView filter caller now)).take limit)) ∧
    (∀ query : String,
      let rows := db.scanRows ⟨filter, caller, now, pageSize⟩ fun stored =>
        likeContains stored.columns.content query
      rows.length < maxScanRows →
        textSearchScan δ db filter caller now limit pageSize query =
          .ok ((rows.filterMap fun stored =>
            (searchableView filter caller now stored).map fun memory => ⟨memory, none⟩).take
              limit)) ∧
    ∀ rank : MemoryRow → Option δ,
      let rows := db.rankedRows rank filter caller now
      let found : List (SearchResult δ) := rows.filterMap fun row =>
        (searchableView filter caller now row.1).map fun memory => ⟨memory, some row.2⟩
      rows.length < maxScanRows →
        ftsSearchScan db (some rank) filter caller now limit = .ok (found.take limit) ∧
        (found.map (·.memory.id)).Nodup := by
  refine ⟨?_, ?_, ?_, ?_⟩
  · intro extraWhere hydrateEntities cfg accepted few
    refine ⟨?_, ?_, ?_⟩
    · have taken := pagedScanLoop_takeStep hydrateEntities wanted some positive fits few
      rw [List.filterMap_some] at taken
      exact taken
    · intro σ tally state
      exact pagedScanLoop_eq hydrateEntities (incremental_tallyPages tally) positive fits few
        trivial
    · refine List.Nodup.sublist (map_filterMap_sublist (fun stored view shown => ?_) _)
        (db.nodup_scanRows cfg extraWhere)
      exact (Memory.applyAccessPolicy_id (applyAccessPolicyForFilter_shown shown) :)
  · intro chosen chosenLimit rows few
    exact listWithPaging_eq chosenLimit wanted limitFits few
  · intro query rows few
    exact textSearchScan_eq wanted positive fits query few
  · intro rank rows found few
    refine ⟨ftsSearchScan_eq wanted limitFits rank few, ?_⟩
    refine List.Nodup.sublist (map_filterMap_sublist (fun row result shown => ?_) _)
      (db.nodup_rankedRows rank)
    obtain ⟨view, accepted, rfl⟩ := Option.map_eq_some_iff.mp shown
    unfold searchableView at accepted
    split at accepted
    · exact (acceptedView_shown accepted).2.1
    · cases accepted

end SingleShot

/-- A store with one memory, which hides its content from everybody but its
owner. -/
def hiddenDb : Db :=
  { Db.empty 1 with
    memories := ⟨[preparedMemoryRow
      ⟨{ Memory.plain ⟨1⟩ "owner" "hidden text" 0 with accessPolicy := .redacted [.tags] },
        none⟩], by decide⟩ }

/-- A store in which a reader meets a hidden and a closed memory between the open
ones. -/
def mixedDb : Db :=
  let note (id : Nat) (content : String) (accessPolicy : AccessPolicy) :=
    preparedMemoryRow
      ⟨{ Memory.plain ⟨id⟩ "owner" content id with accessPolicy }, none⟩
  { Db.empty 6 with
    memories := ⟨[note 1 "first note" .publicPolicy, note 2 "hidden note" (.redacted [.tags]),
      note 3 "second note" .publicPolicy, note 4 "closed note" (.restricted ["owner"]),
      note 5 "a remark" .publicPolicy, note 6 "third note" .publicPolicy], by decide⟩ }

/-- Pages of one row, of which the second result lies behind rows that are left
out. -/
theorem paged_scans_single_shot_hidden :
    let cfg : ScanConfig := ⟨.default, some "reader", 9, 1⟩
    let rows := @Db.scanRows asciiHost mixedDb cfg fun stored =>
      likeContains stored.columns.content "note"
    let found := rows.filterMap fun stored =>
      (@searchableView asciiHost .default (some "reader") 9 stored).map fun memory =>
        (⟨memory, none⟩ : SearchResult Nat)
    rows.length = 5 ∧
      @textSearchScan asciiHost Nat mixedDb .default (some "reader") 9 2 1 "note" =
        .ok (found.take 2) ∧
      (found.take 2).map (·.memory.id) = [⟨6⟩, ⟨3⟩] ∧
      @listWithPaging asciiHost mixedDb .default (some 2) (some "reader") 9 =
        .ok (((@Db.scanRows asciiHost mixedDb ⟨.default, some "reader", 9, overfetchPageSize 2⟩
          fun _ => true).filterMap
          (@acceptedView asciiHost .default (some "reader") 9)).take 2) := by
  intro cfg rows found
  have scans := @paged_scans_single_shot asciiHost Nat _ mixedDb .default (some "reader") 9 2 1
    (by decide) (by decide) (by decide) (by decide)
  have few : rows.length = 5 := by decide +kernel
  refine ⟨few, scans.2.2.1 "note" (by rw [few]; decide), by decide +kernel, ?_⟩
  exact scans.2.1 (some 2) rfl (by decide +kernel)

/-- A reader of a redacted memory may list it, but no full-text query finds it. -/
theorem fts_scan_skips_hidden_content :
    ((@Db.rankedRows asciiHost Nat _ hiddenDb (fun _ => some 0) .default (some "reader") 1).filterMap
      fun row => @acceptedView asciiHost .default (some "reader") 1 row.1).length = 1 ∧
    @ftsSearchScan asciiHost Nat _ hiddenDb (some fun _ => some 0) .default (some "reader") 1 1 =
      .ok [] := by
  constructor
  · rfl
  · exact (@ftsSearchScan_eq asciiHost _ _ _ _ _ _ 1 (by decide) (by decide) _
      (by decide)).trans rfl

end LocalHold
