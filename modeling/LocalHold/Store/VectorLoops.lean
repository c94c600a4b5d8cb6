import LocalHold.Paging.Widening
import LocalHold.Store.LateHydration
import Mathlib.Data.Prod.Lex
import Mathlib.Order.WithBot

/-!
# Vector search loops

The two loops behind the search by embedding ask the vector table for the
nearest vectors, filter the memories in Rust, and ask for twice as many when
too few are left.  What they return is what sorting and cutting off all
accepted memories among the first vectors would return.
-/

namespace LocalHold

open Relational Paging Ranking Transition

/-! ## The loops -/

/-- `MAX_VEC_CANDIDATES`. -/
def maxVecCandidates : Nat := 1000

/-- `fetch_size.saturating_mul(2)`. -/
def doubleFetch : Growth maxVecCandidates where
  next fetchSize := min (fetchSize * 2) (usizeRange - 1)
  increases fetchSize positive below := by
    have ceiling : maxVecCandidates < usizeRange - 1 := by decide
    omega

theorem firstFetch_pos (limit : Nat) (positive : 0 < limit) :
    0 < min (limit * overfetchFactor) (usizeRange - 1) := by
  simp only [overfetchFactor, usizeRange]
  omega

/-- `limit.saturating_mul(OVERFETCH_FACTOR)`. -/
def firstFetch (limit : Nat) : RequestSize limit :=
  ⟨min (limit * overfetchFactor) (usizeRange - 1), firstFetch_pos limit⟩

variable {δ : Type}

/-- The hits of a batch that the set of seen identifiers does not hold yet. -/
def freshHits (seenIds : List MemoryId) : List (VectorHit δ) → List (VectorHit δ)
  | [] => []
  | hit :: rest =>
      if hit.memoryId ∈ seenIds then freshHits seenIds rest
      else hit :: freshHits (hit.memoryId :: seenIds) rest

/-- The results so far and the identifiers seen. -/
structure VectorSearch (δ : Type) where
  results : List (SearchResult δ)
  seenIds : List MemoryId

/-- `cmp_search_result_distance_asc`. -/
def cmpSearchResultDistanceAsc [LinearOrder δ] (first second : SearchResult δ) : Ordering :=
  (match first.distance, second.distance with
    | some near, some far => compare near far
    | some _, none => .lt
    | none, some _ => .gt
    | none, none => .eq).then (compare first.memory.id second.memory.id)

/-- `sort_by_distance`. -/
def sortByDistance [LinearOrder δ] (results : List (SearchResult δ)) : List (SearchResult δ) :=
  orderBy (fun first second => (cmpSearchResultDistanceAsc first second).isLE) results

section Loops

variable [Host] [LinearOrder δ]

/-- Hydrate the new hits and append the ones that pass the filter. -/
def Db.collectHits (db : Db) (ctx : PostFilterContext δ) (results : List (SearchResult δ))
    (hits : List (VectorHit δ)) : List (SearchResult δ) :=
  if hits.isEmpty then results
  else db.postFilterResults ctx results (db.hydrateCandidates hits) hits

/-- One pass of the loop of `embedding_search_loop`. -/
def Db.embeddingSearchRound (db : Db) (searchBatch : Nat → Except StoreError (VectorBatch δ))
    (ctx : PostFilterContext δ) (fetchSize : Nat) (search : VectorSearch δ) :
    Except StoreError (VectorSearch δ × Bool) := do
  let batch ← searchBatch (min fetchSize maxVecCandidates)
  let newResults := freshHits search.seenIds batch.hits
  let seenIds := newResults.map VectorHit.memoryId ++ search.seenIds
  if newResults.isEmpty && decide (batch.returnedCount < fetchSize) then
    return (⟨search.results, seenIds⟩, true)
  else
    return (⟨db.collectHits ctx search.results newResults, seenIds⟩,
      decide (batch.returnedCount < fetchSize))

/-- `embedding_search_loop`. -/
def embeddingSearchLoop (db : Db) (searchBatch : Nat → Except StoreError (VectorBatch δ))
    (limit : Nat) (ctx : PostFilterContext δ) : Except StoreError (List (SearchResult δ)) := do
  let search ← widen doubleFetch (fun search : VectorSearch δ => search.results.length)
    (db.embeddingSearchRound searchBatch ctx) (firstFetch limit) ⟨[], []⟩
  return (sortByDistance search.results).take limit

/-- What the vector table answers: at most so many of the rows it may return,
with their distances. -/
abbrev VectorTable (δ : Type) :=
  (Nat → Bool) → Nat → List (Nat × δ)

/-- Whether the memory of a vector passes the conditions of the query. -/
def Db.prefiltered (db : Db) (ctx : PostFilterContext δ) (vecRowid : Nat) : Bool :=
  (Table.join (db.memories.select fun row => whereClause ctx.filter ctx.caller ctx.now (db.stored row))
    db.embeddingMap.rows MemoryRow.id EmbeddingMapRow.memoryId).any fun pair =>
      pair.2.vecRowid == vecRowid

/-- The rows of the vector table joined with the map. -/
def Db.hitsOf (db : Db) (rows : List (Nat × δ)) : List (VectorHit δ) :=
  (Table.join rows db.embeddingMap.rows Prod.fst EmbeddingMapRow.vecRowid).map fun pair =>
    ⟨pair.2.memoryId, pair.1.2⟩

/-- The query of `filtered_embedding_search_sql`. -/
def Db.filteredEmbeddingSearch (db : Db) (vectorTable : VectorTable δ) (ctx : PostFilterContext δ)
    (limit : Nat) : List (VectorHit δ) :=
  orderBy (fun first second => decide (first.distance < second.distance) ||
      (decide (first.distance = second.distance) && decide (first.memoryId ≤ second.memoryId)))
    (db.hitsOf (vectorTable (db.prefiltered ctx) limit))

/-- One pass of the loop of `filtered_embedding_search_loop`. -/
def Db.filteredSearchRound (db : Db) (vectorTable : VectorTable δ) (ctx : PostFilterContext δ)
    (fetchSize : Nat) (search : VectorSearch δ) : Except StoreError (VectorSearch δ × Bool) := do
  let candidateLimit := min fetchSize maxVecCandidates
  let _ ← usizeToI64 candidateLimit "governed vector candidate limit"
  let rows := db.filteredEmbeddingSearch vectorTable ctx candidateLimit
  let hits := freshHits search.seenIds rows
  return (⟨db.collectHits ctx search.results hits,
    hits.map VectorHit.memoryId ++ search.seenIds⟩, decide (rows.length < candidateLimit))

/-- `filtered_embedding_search_loop`. -/
def filteredEmbeddingSearchLoop (db : Db) (vectorTable : VectorTable δ) (limit : Nat)
    (ctx : PostFilterContext δ) : Except StoreError (List (SearchResult δ)) := do
  let search ← widen doubleFetch (fun search : VectorSearch δ => search.results.length)
    (db.filteredSearchRound vectorTable ctx) (firstFetch limit) ⟨[], []⟩
  return (sortByDistance search.results).take limit

end Loops

/-! ## The order of the results -/

section Order

variable [LinearOrder δ]

/-- The distance of a result, the largest when there is none, and its memory. -/
def distanceKey (result : SearchResult δ) : Lex (WithTop δ × MemoryId) :=
  toLex (match result.distance with
    | some distance => (distance : WithTop δ)
    | none => ⊤, result.memory.id)

theorem isLE_cmpSearchResultDistanceAsc (first second : SearchResult δ) :
    (cmpSearchResultDistanceAsc first second).isLE =
      decide (distanceKey first ≤ distanceKey second) := by
  have ids : (compare first.memory.id second.memory.id).isLE =
      decide (first.memory.id ≤ second.memory.id) := by
    rw [Bool.eq_iff_iff, decide_eq_true_iff, ← compare_le_iff_le, Ordering.isLE_iff_ne_gt]
  rw [Bool.eq_iff_iff, decide_eq_true_iff, cmpSearchResultDistanceAsc, Ordering.isLE_then_iff_or,
    distanceKey, distanceKey, Prod.Lex.toLex_le_toLex, ids, decide_eq_true_iff]
  cases first.distance with
  | none =>
      cases second.distance with
      | none => simp
      | some far => simp
  | some near =>
      cases second.distance with
      | none => simp
      | some far => simp [compare_lt_iff_lt]

theorem sortByDistance_eq (results : List (SearchResult δ)) :
    sortByDistance results = nearestFirst distanceKey results := by
  rw [sortByDistance, nearestFirst, rankBy]
  congr 1
  funext first second
  rw [isLE_cmpSearchResultDistanceAsc]
  rfl

theorem distanceKey_le_iff {first second : SearchResult δ} {near far : δ}
    (firstNear : first.distance = some near) (secondFar : second.distance = some far) :
    distanceKey first ≤ distanceKey second ↔
      near < far ∨ near = far ∧ first.memory.id ≤ second.memory.id := by
  rw [distanceKey, distanceKey, Prod.Lex.toLex_le_toLex, firstNear, secondFar]
  simp

end Order

/-! ## One round -/

theorem freshHits_eq {hits : List (VectorHit δ)} (distinct : (hits.map VectorHit.memoryId).Nodup)
    (seenIds : List MemoryId) :
    freshHits seenIds hits = hits.filter fun hit => decide (hit.memoryId ∉ seenIds) := by
  induction hits generalizing seenIds with
  | nil => rfl
  | cons hit rest inductionHypothesis =>
      obtain ⟨other, restDistinct⟩ := List.nodup_cons.mp distinct
      by_cases seen : hit.memoryId ∈ seenIds
      · rw [freshHits, if_pos seen, inductionHypothesis restDistinct, List.filter_cons_of_neg]
        simpa using seen
      · rw [freshHits, if_neg seen, inductionHypothesis restDistinct, List.filter_cons_of_pos]
        · congr 1
          apply List.filter_congr
          intro later laterMem
          have different : later.memoryId ≠ hit.memoryId := by
            rintro same
            exact other (List.mem_map.mpr ⟨later, laterMem, same⟩)
          simp [different]
        · simpa using seen

section Rounds

variable [Host] [LinearOrder δ] {db : Db} {ctx : PostFilterContext δ}

/-- The result of a hit that the distance, the access policy, the lifecycle and
the filter admit. -/
def PostFilterContext.accepted (ctx : PostFilterContext δ) (db : Db) (hit : VectorHit δ) :
    Option (SearchResult δ) :=
  if ctx.maxDistance.all fun threshold => decide (hit.distance ≤ threshold) then
    (db.memories.find? hit.memoryId).bind fun row =>
      (searchableView ctx.filter ctx.caller ctx.now (db.stored row)).map fun memory =>
        ⟨memory, some hit.distance⟩
  else
    none

omit [LinearOrder δ] in
theorem searchableView_id {filter : MemoryFilter} {caller : Option String} {now : Instant}
    {row : MemoryRow} {memory : Memory}
    (visible : searchableView filter caller now (db.stored row) = some memory) :
    memory.id = row.id := by
  unfold searchableView at visible
  split at visible
  · exact (acceptedView_shown visible).2.1
  · cases visible

theorem PostFilterContext.accepted_stored {hit : VectorHit δ} {result : SearchResult δ}
    (accepted : ctx.accepted db hit = some result) :
    ∃ row ∈ db.memories, row.id = hit.memoryId := by
  unfold PostFilterContext.accepted at accepted
  split at accepted
  · obtain ⟨row, found, _⟩ := Option.bind_eq_some_iff.mp accepted
    exact ⟨row, Table.find?_eq_some_iff.mp found⟩
  · cases accepted

theorem PostFilterContext.accepted_shown {hit : VectorHit δ} {result : SearchResult δ}
    (accepted : ctx.accepted db hit = some result) :
    result.memory.id = hit.memoryId ∧ result.distance = some hit.distance := by
  unfold PostFilterContext.accepted at accepted
  split at accepted
  · obtain ⟨row, found, visible⟩ := Option.bind_eq_some_iff.mp accepted
    obtain ⟨memory, isVisible, rfl⟩ := Option.map_eq_some_iff.mp visible
    have sameId : memory.id = row.id := searchableView_id isVisible
    exact ⟨sameId.trans (Table.find?_eq_some_iff.mp found).2, rfl⟩
  · cases accepted

omit [Host] [LinearOrder δ] in
/-- The distance of a hit among distinct ones. -/
theorem distanceOf_hit {hits : List (VectorHit δ)} (distinct : (hits.map VectorHit.memoryId).Nodup)
    {hit : VectorHit δ} (member : hit ∈ hits) : distanceOf hits hit.memoryId = some hit.distance := by
  have named : ((hits.map fun hit => (hit.memoryId, hit.distance)).map Prod.fst).Nodup := by
    rw [List.map_map]
    exact distinct
  rw [distanceOf, collect_eq_some_iff named]
  exact List.mem_map.mpr ⟨hit, member, rfl⟩

/-- Collecting distinct hits adds the results of the accepted ones. -/
theorem Db.collectHits_perm (results : List (SearchResult δ)) {hits : List (VectorHit δ)}
    (distinct : (hits.map VectorHit.memoryId).Nodup) :
    (db.collectHits ctx results hits).Perm (results ++ hits.filterMap (ctx.accepted db)) := by
  unfold Db.collectHits
  split
  case isTrue empty =>
    rw [List.isEmpty_iff.mp empty]
    simp
  case isFalse =>
    rw [Db.postFilterResults_eq]
    refine List.Perm.append_left results ?_
    have decided {hit : VectorHit δ} (hitMem : hit ∈ hits) {row : MemoryRow}
        (rowMem : row ∈ db.memories) (named : row.id = hit.memoryId) :
        ((ctx.near hits row.id).bind fun distance =>
          (searchableView ctx.filter ctx.caller ctx.now (db.stored row)).map fun memory =>
            (⟨memory, distance⟩ : SearchResult δ)) = ctx.accepted db hit := by
      have found : db.memories.find? hit.memoryId = some row :=
        Table.find?_eq_some_iff.mpr ⟨rowMem, named⟩
      rw [PostFilterContext.near, PostFilterContext.accepted, found, named,
        distanceOf_hit distinct hitMem]
      simp only [Option.any_some, Option.bind_some]
      split
      · rfl
      · rfl
    rw [List.perm_ext_iff_of_nodup]
    · intro result
      constructor
      · intro listed
        obtain ⟨row, rowMem, isAccepted⟩ := List.mem_filterMap.mp listed
        obtain ⟨stored, selected⟩ := Table.mem_select_iff.mp rowMem
        obtain ⟨hit, hitMem, named⟩ := List.mem_map.mp (List.contains_iff_mem.mp selected)
        rw [decided hitMem stored named.symm] at isAccepted
        exact List.mem_filterMap.mpr ⟨hit, hitMem, isAccepted⟩
      · intro listed
        obtain ⟨hit, hitMem, isAccepted⟩ := List.mem_filterMap.mp listed
        obtain ⟨row, rowMem, named⟩ := PostFilterContext.accepted_stored isAccepted
        rw [← decided hitMem rowMem named] at isAccepted
        refine List.mem_filterMap.mpr ⟨row, Table.mem_select_iff.mpr ⟨rowMem, ?_⟩, isAccepted⟩
        rw [named]
        exact List.contains_iff_mem.mpr (List.mem_map_of_mem hitMem)
    · refine List.Nodup.of_map (fun result : SearchResult δ => result.memory.id) ?_
      have rowIds : ((db.memories.select fun row =>
          (hits.map VectorHit.memoryId).contains row.id).map MemoryRow.id).Nodup :=
        db.memories.nodup.sublist (List.filter_sublist.map _)
      refine rowIds.sublist (map_filterMap_sublist (fun row result isAccepted => ?_) _)
      obtain ⟨distance, _, visible⟩ := Option.bind_eq_some_iff.mp isAccepted
      obtain ⟨memory, isVisible, rfl⟩ := Option.map_eq_some_iff.mp visible
      exact searchableView_id isVisible
    · refine List.Nodup.of_map (fun result : SearchResult δ => result.memory.id) ?_
      exact distinct.sublist (map_filterMap_sublist (fun hit result isAccepted =>
        (PostFilterContext.accepted_shown isAccepted).1) _)

/-- The search has seen these hits and holds the results of the accepted ones. -/
structure Absorbed (db : Db) (ctx : PostFilterContext δ) (hits : List (VectorHit δ))
    (search : VectorSearch δ) : Prop where
  results : search.results.Perm (hits.filterMap (ctx.accepted db))
  seen : ∀ id, id ∈ search.seenIds ↔ id ∈ hits.map VectorHit.memoryId

/-- Hits that were seen before count once. -/
theorem Absorbed.widen {order hits : List (VectorHit δ)}
    (distinct : (order.map VectorHit.memoryId).Nodup) {read size : Nat} (below : read ≤ size)
    {search : VectorSearch δ} (absorbed : Absorbed db ctx (order.take read) search)
    (batch : hits.Perm (order.take size)) :
    Absorbed db ctx (order.take size)
      ⟨db.collectHits ctx search.results (freshHits search.seenIds hits),
        (freshHits search.seenIds hits).map VectorHit.memoryId ++ search.seenIds⟩ := by
  obtain ⟨later, split⟩ : ∃ later, order.take size = order.take read ++ later := by
    refine ⟨(order.take size).drop read, ?_⟩
    have parts := List.take_append_drop read (order.take size)
    rw [List.take_take, Nat.min_eq_left below] at parts
    exact parts.symm
  have distinctTaken : ((order.take size).map VectorHit.memoryId).Nodup :=
    distinct.sublist ((List.take_sublist _ _).map _)
  have hitsDistinct := (batch.map VectorHit.memoryId).nodup_iff.mpr distinctTaken
  rw [split] at batch distinctTaken ⊢
  rw [List.map_append] at distinctTaken
  obtain ⟨_, laterDistinct, apart⟩ := List.nodup_append.mp distinctTaken
  have fresh : (freshHits search.seenIds hits).Perm later := by
    rw [freshHits_eq hitsDistinct]
    refine (batch.filter _).trans (List.Perm.of_eq ?_)
    have none : (order.take read).filter (fun hit => decide (hit.memoryId ∉ search.seenIds)) =
        [] := by
      rw [List.filter_eq_nil_iff]
      intro hit hitMem
      simpa using (absorbed.seen hit.memoryId).mpr (List.mem_map_of_mem hitMem)
    have all : later.filter (fun hit => decide (hit.memoryId ∉ search.seenIds)) = later := by
      rw [List.filter_eq_self]
      intro hit hitMem
      apply decide_eq_true
      intro seen
      exact apart _ ((absorbed.seen hit.memoryId).mp seen) _ (List.mem_map_of_mem hitMem) rfl
    rw [List.filter_append, none, List.nil_append, all]
  have freshDistinct : ((freshHits search.seenIds hits).map VectorHit.memoryId).Nodup :=
    (fresh.map _).nodup_iff.mpr laterDistinct
  constructor
  · refine (db.collectHits_perm search.results freshDistinct).trans ?_
    rw [List.filterMap_append]
    exact absorbed.results.append (fresh.filterMap _)
  · intro id
    rw [List.map_append, List.mem_append, List.mem_append, absorbed.seen,
      (fresh.map _).mem_iff]
    exact or_comm

/-- The index answers a request with the first hits of a fixed order. -/
def AnswersFirst (searchBatch : Nat → Except StoreError (VectorBatch δ))
    (order : List (VectorHit δ)) : Prop :=
  ∀ k ≤ maxVecCandidates, ∃ batch, searchBatch k = .ok batch ∧
    batch.hits.Perm (order.take k) ∧ batch.returnedCount = batch.hits.length

theorem readsFirst_embeddingSearchRound {order : List (VectorHit δ)}
    (distinct : (order.map VectorHit.memoryId).Nodup)
    {searchBatch : Nat → Except StoreError (VectorBatch δ)}
    (answers : AnswersFirst searchBatch order) :
    ReadsFirst maxVecCandidates order (Absorbed db ctx)
      (db.embeddingSearchRound searchBatch ctx) := by
  intro read size search below absorbed
  obtain ⟨batch, answered, first, counted⟩ :=
    answers (min size maxVecCandidates) (min_le_right _ _)
  have next := absorbed.widen distinct below first
  refine ⟨_, decide (batch.returnedCount < size), ?_, next, ?_⟩
  · rw [Db.embeddingSearchRound, answered]
    change (if _ then _ else _) = _
    split
    case isTrue beyond =>
      obtain ⟨empty, short⟩ := Bool.and_eq_true_iff.mp beyond
      rw [short, Db.collectHits, if_pos empty]
      rfl
    case isFalse => rfl
  · intro exhausted
    have short := of_decide_eq_true exhausted
    rw [counted, first.length_eq, List.length_take] at short
    rcases Nat.le_total size maxVecCandidates with fits | full
    · rw [Nat.min_eq_left fits] at short ⊢
      rw [List.take_of_length_le (by omega), List.take_of_length_le (by omega)]
    · rw [Nat.min_eq_right full]

theorem readsFirst_filteredSearchRound {order : List (VectorHit δ)}
    (distinct : (order.map VectorHit.memoryId).Nodup) {vectorTable : VectorTable δ}
    (answers : ∀ k, (db.filteredEmbeddingSearch vectorTable ctx k).Perm (order.take k)) :
    ReadsFirst maxVecCandidates order (Absorbed db ctx)
      (db.filteredSearchRound vectorTable ctx) := by
  intro read size search below absorbed
  have first := answers (min size maxVecCandidates)
  have converted : usizeToI64 (min size maxVecCandidates) "governed vector candidate limit" =
      .ok (min size maxVecCandidates : Nat) := by
    have bounded : min size maxVecCandidates < i64Range :=
      lt_of_le_of_lt (min_le_right _ _) (by decide)
    rw [usizeToI64, if_pos bounded]
  refine ⟨_, decide ((db.filteredEmbeddingSearch vectorTable ctx
    (min size maxVecCandidates)).length < min size maxVecCandidates), ?_,
    absorbed.widen distinct below first, ?_⟩
  · rw [Db.filteredSearchRound]
    simp only [converted]
    rfl
  · intro exhausted
    have short := of_decide_eq_true exhausted
    rw [first.length_eq, List.length_take] at short
    rw [List.take_of_length_le (by omega), List.take_of_length_le (by omega)]

/-! ## What the loops return -/

/-- Distinct accepted memories by distance and identifier, at most `limit`; with
fewer no accepted memory among the first candidates is missing, and one that is
missing is not nearer than one that is there. -/
structure NearestAccepted (db : Db) (ctx : PostFilterContext δ) (limit : Nat)
    (order : List (VectorHit δ)) (results : List (SearchResult δ)) : Prop where
  distinct : (results.map fun result => result.memory.id).Nodup
  bounded : results.length ≤ limit
  sorted : results.Pairwise fun first second => ∀ near far, first.distance = some near →
    second.distance = some far →
      near < far ∨ near = far ∧ first.memory.id < second.memory.id
  accepted : ∀ result ∈ results, ∃ hit ∈ order.take maxVecCandidates,
    ctx.accepted db hit = some result
  complete : results.length < limit → ∀ hit ∈ order.take maxVecCandidates, ∀ result,
    ctx.accepted db hit = some result → result ∈ results
  nearest : ∀ hit ∈ order.take maxVecCandidates, ∀ leftOut,
    ctx.accepted db hit = some leftOut → leftOut ∉ results →
      ∀ result ∈ results, ∀ distance, result.distance = some distance → ¬ hit.distance < distance

/-- A loop that reads the first hits of an order by distance returns the
nearest accepted memories. -/
theorem nearestAccepted_of_readsFirst {order : List (VectorHit δ)}
    (distinct : (order.map VectorHit.memoryId).Nodup)
    (sorted : order.Pairwise fun first second => first.distance ≤ second.distance)
    {round : Nat → VectorSearch δ → Except StoreError (VectorSearch δ × Bool)}
    (reads : ReadsFirst maxVecCandidates order (Absorbed db ctx) round) (limit : Nat) :
    ∃ search, widen doubleFetch (fun search : VectorSearch δ => search.results.length) round
        (firstFetch limit) ⟨[], []⟩ = .ok search ∧
      NearestAccepted db ctx limit order ((sortByDistance search.results).take limit) := by
  have start : Absorbed db ctx (order.take 0) ⟨[], []⟩ := ⟨by simp, by simp⟩
  obtain ⟨search, count, ran, below, absorbed, ended⟩ :=
    reads.widen_ok doubleFetch (fun search => search.results.length) (firstFetch limit) ⟨[], []⟩
      (Nat.zero_le _) start
  have found : Found (ctx.accepted db) maxVecCandidates limit order search.results :=
    ⟨count, below, absorbed.results, ended⟩
  have keeps : (sortByDistance search.results).take limit = kept distanceKey limit search.results := by
    rw [sortByDistance_eq, kept]
  refine ⟨search, ran, ?_⟩
  rw [keeps]
  have ids : ((kept distanceKey limit search.results).map fun result => result.memory.id).Nodup := by
    have all : (search.results.map fun result => result.memory.id).Nodup := by
      rw [(absorbed.results.map _).nodup_iff]
      have taken : ((order.take count).map VectorHit.memoryId).Nodup :=
        distinct.sublist ((List.take_sublist _ _).map _)
      exact taken.sublist (map_filterMap_sublist (fun hit result isAccepted =>
        (PostFilterContext.accepted_shown isAccepted).1) _)
    rw [kept]
    have ranked : ((nearestFirst distanceKey search.results).map fun result =>
        result.memory.id).Nodup := ((perm_rankBy _ _).map _).nodup_iff.mpr all
    exact ranked.sublist ((List.take_sublist _ _).map _)
  constructor
  case distinct => exact ids
  case bounded => exact List.length_take_le _ _
  case sorted =>
    have ordered : (kept distanceKey limit search.results).Pairwise fun first second =>
        distanceKey first ≤ distanceKey second :=
      (pairwise_nearestFirst distanceKey search.results).sublist (List.take_sublist _ _)
    refine (ordered.and (List.pairwise_map.mp ids)).imp ?_
    rintro first second ⟨below, different⟩ near far firstNear secondFar
    rcases (distanceKey_le_iff firstNear secondFar).mp below with nearer | ⟨same, earlier⟩
    · exact Or.inl nearer
    · exact Or.inr ⟨same, lt_of_le_of_ne earlier different⟩
  case accepted => exact fun result member => found.accepted member
  case complete =>
    exact fun few hit hitMem result isAccepted => found.complete few hitMem isAccepted
  case nearest =>
    intro hit hitMem leftOut leftAccepted missing result member distance shownDistance
    obtain ⟨source, _, isAccepted⟩ := found.accepted member
    have ordered : source.distance ≤ hit.distance := by
      refine found.nearest sorted (fun _ _ _ _ rowAccepted otherAccepted ordered => ?_)
        isAccepted member hitMem leftAccepted missing
      rcases (distanceKey_le_iff (PostFilterContext.accepted_shown rowAccepted).2
          (PostFilterContext.accepted_shown otherAccepted).2).mp ordered with nearer | ⟨same, _⟩
      · exact nearer.le
      · exact same.le
    rw [(PostFilterContext.accepted_shown isAccepted).2] at shownDistance
    cases shownDistance
    exact not_lt.mpr ordered

/-! ## The vector table -/

/-- The stored vectors with their distances, nearest first, each mapped to a
memory. -/
structure VectorOrder (db : Db) (rows : List (Nat × δ)) : Prop where
  unique : UniqueVectors db
  distinct : (rows.map Prod.fst).Nodup
  sorted : rows.Pairwise fun first second => first.2 ≤ second.2
  mapped : ∀ row ∈ rows, ∃ mapping ∈ db.embeddingMap, mapping.vecRowid = row.1

omit [Host] in
theorem VectorOrder.sublist {rows fewer : List (Nat × δ)} (ordered : VectorOrder db rows)
    (included : fewer.Sublist rows) : VectorOrder db fewer where
  unique := ordered.unique
  distinct := ordered.distinct.sublist (included.map _)
  sorted := ordered.sorted.sublist included
  mapped row rowMem := ordered.mapped row (included.subset rowMem)

omit [Host] in
/-- Each stored vector is one hit. -/
theorem VectorOrder.exists_hitOf {rows : List (Nat × δ)} (ordered : VectorOrder db rows) :
    ∃ hitOf : Nat × δ → VectorHit δ, (∀ row, (hitOf row).distance = row.2) ∧
      (rows.map fun row => (hitOf row).memoryId).Nodup ∧
      ∀ fewer, fewer ⊆ rows → db.hitsOf fewer = fewer.map hitOf := by
  have named : ∀ row ∈ rows, ∃ mapping ∈ db.embeddingMap.rows,
      EmbeddingMapRow.vecRowid mapping = Prod.fst row := ordered.mapped
  rcases Table.exists_partner named with rfl | ⟨partner, partnerOk⟩
  · refine ⟨fun row => ⟨⟨0⟩, row.2⟩, fun _ => rfl, List.nodup_nil, fun fewer included => ?_⟩
    rw [List.subset_nil.mp included]
    rfl
  · refine ⟨fun row => ⟨(partner row).memoryId, row.2⟩, fun _ => rfl, ?_, fun fewer included => ?_⟩
    · refine List.Nodup.map_on (fun first firstMem second secondMem same => ?_)
        (ordered.distinct.of_map _)
      have sameMapping : partner first = partner second :=
        List.inj_on_of_nodup_map db.embeddingMap.nodup (partnerOk first firstMem).1
          (partnerOk second secondMem).1 same
      have sameRowid : first.1 = second.1 := by
        rw [← (partnerOk first firstMem).2, ← (partnerOk second secondMem).2, sameMapping]
      exact List.inj_on_of_nodup_map ordered.distinct firstMem secondMem sameRowid
    · rw [Db.hitsOf, Table.join_eq_map ordered.unique fun row rowMem =>
        partnerOk row (included rowMem), List.map_map]
      rfl

omit [Host] in
theorem VectorOrder.hitsOf_take {rows : List (Nat × δ)} (ordered : VectorOrder db rows)
    (count : Nat) : db.hitsOf (rows.take count) = (db.hitsOf rows).take count := by
  obtain ⟨hitOf, _, _, hits⟩ := ordered.exists_hitOf
  rw [hits _ (List.take_subset count rows), hits _ (List.Subset.refl rows), List.map_take]

omit [Host] in
theorem VectorOrder.nodup_hitsOf {rows : List (Nat × δ)} (ordered : VectorOrder db rows) :
    ((db.hitsOf rows).map VectorHit.memoryId).Nodup := by
  obtain ⟨hitOf, _, distinct, hits⟩ := ordered.exists_hitOf
  rw [hits _ (List.Subset.refl rows), List.map_map]
  exact distinct

omit [Host] in
theorem VectorOrder.sorted_hitsOf {rows : List (Nat × δ)} (ordered : VectorOrder db rows) :
    (db.hitsOf rows).Pairwise fun first second => first.distance ≤ second.distance := by
  obtain ⟨hitOf, distances, _, hits⟩ := ordered.exists_hitOf
  rw [hits _ (List.Subset.refl rows), List.pairwise_map]
  simpa only [distances] using ordered.sorted

/-- What `embedding_search_loop` returns over an index that answers with the
first stored vectors. -/
theorem VectorOrder.embeddingSearchLoop_nearest {rows : List (Nat × δ)}
    (ordered : VectorOrder db rows) (limit : Nat) (ctx : PostFilterContext δ)
    {searchBatch : Nat → Except StoreError (VectorBatch δ)}
    (answers : ∀ k ≤ maxVecCandidates, ∃ batch, searchBatch k = .ok batch ∧
      batch.hits.Perm (db.hitsOf (rows.take k)) ∧ batch.returnedCount = batch.hits.length) :
    ∃ results, embeddingSearchLoop db searchBatch limit ctx = .ok results ∧
      NearestAccepted db ctx limit (db.hitsOf rows) results := by
  have answersFirst : AnswersFirst searchBatch (db.hitsOf rows) := by
    intro k below
    obtain ⟨batch, answered, first, counted⟩ := answers k below
    rw [ordered.hitsOf_take] at first
    exact ⟨batch, answered, first, counted⟩
  have reads : ReadsFirst maxVecCandidates (db.hitsOf rows) (Absorbed db ctx) _ :=
    readsFirst_embeddingSearchRound ordered.nodup_hitsOf answersFirst
  obtain ⟨search, ran, nearest⟩ := nearestAccepted_of_readsFirst ordered.nodup_hitsOf
    ordered.sorted_hitsOf reads limit
  refine ⟨_, ?_, nearest⟩
  rw [embeddingSearchLoop, ran]
  rfl

/-- What `filtered_embedding_search_loop` returns over a table that answers with
the first eligible vectors. -/
theorem VectorOrder.filteredEmbeddingSearchLoop_nearest {rows : List (Nat × δ)}
    (ordered : VectorOrder db rows) (limit : Nat) (ctx : PostFilterContext δ)
    {vectorTable : VectorTable δ} (answers : ∀ eligible k, vectorTable eligible k =
      (rows.filter fun row => eligible row.1).take k) :
    ∃ results, filteredEmbeddingSearchLoop db vectorTable limit ctx = .ok results ∧
      NearestAccepted db ctx limit
        (db.hitsOf (rows.filter fun row => db.prefiltered ctx row.1)) results := by
  have eligible : VectorOrder db (rows.filter fun row => db.prefiltered ctx row.1) :=
    ordered.sublist List.filter_sublist
  have answersFirst (k : Nat) : (db.filteredEmbeddingSearch vectorTable ctx k).Perm
      ((db.hitsOf (rows.filter fun row => db.prefiltered ctx row.1)).take k) := by
    rw [Db.filteredEmbeddingSearch, answers, eligible.hitsOf_take]
    exact perm_orderBy _ _
  obtain ⟨search, ran, nearest⟩ := nearestAccepted_of_readsFirst eligible.nodup_hitsOf
    eligible.sorted_hitsOf (readsFirst_filteredSearchRound eligible.nodup_hitsOf answersFirst)
    limit
  refine ⟨_, ?_, nearest⟩
  rw [filteredEmbeddingSearchLoop, ran]
  rfl

end Rounds

/-- The map of every reachable state is well formed. -/
theorem mapOk_of_run [Host] {file : IndexFile} {opened db : Db} {calls : List StoreCall}
    (openRan : openIndex file = .ok opened) (runEq : run storeStep opened calls = some db) :
    MapOk db := by
  have preserved : ∀ state call next, IndexOk state → storeStep state call = some next →
      IndexOk next := fun _ _ _ holds stepEq => (storeStep_sustains stepEq holds).1
  exact (run_invariant preserved (indexOk_of_openIndex openRan) runEq).toMapOk

/-! ## The search by embedding -/

section Embeddings

variable [LinearOrder δ]

/-- The stored vectors by their distance. -/
def Db.vectorOrder (db : Db) (distance : Embedding → δ) : List (Nat × δ) :=
  (db.embeddings.rows.mergeSort fun first second =>
    decide (distance first.embedding ≤ distance second.embedding)).map fun vector =>
      (vector.rowid, distance vector.embedding)

/-- The answers of the vector table to a query with a condition on the rows. -/
def Db.vectorTable (db : Db) (distance : Embedding → δ) : VectorTable δ :=
  fun eligible limit => ((db.vectorOrder distance).filter fun row => eligible row.1).take limit

/-- Whether a filter takes the loop that filters in the query. -/
def MemoryFilter.selectsContexts (filter : MemoryFilter) : Bool :=
  filter.contextIds.isSome || filter.legacyContextIdsAny.any fun contextIds => !contextIds.isEmpty

/-- `search_by_embedding_impl`. -/
def Db.searchByEmbedding [Host] (db : Db) (capacity dimensions : Nat)
    (distance : Embedding → Embedding → δ) (now : Instant) (embedding : Embedding) (limit : Nat)
    (filter : MemoryFilter) (principal : Option String) (maxDistance : Option δ) :
    Except StoreError (List (SearchResult δ)) := do
  if limit = 0 then
    return []
  else
    let ctx : PostFilterContext δ := ⟨normalizeFilter filter, principal, now, maxDistance⟩
    let _ ← validateEmbeddingVector embedding dimensions db
    if ctx.filter.selectsContexts then
      filteredEmbeddingSearchLoop db (db.vectorTable (distance embedding)) limit ctx
    else
      embeddingSearchLoop db (fun k =>
        (searchBatch capacity dimensions distance embedding k db).map Prod.fst) limit ctx

theorem MapOk.vectorOrder {db : Db} (mapOk : MapOk db) (distance : Embedding → δ) :
    VectorOrder db (db.vectorOrder distance) where
  unique := mapOk.uniqueVectors
  distinct := by
    rw [Db.vectorOrder, List.map_map]
    have rowids := ((List.mergeSort_perm db.embeddings.rows fun first second =>
      decide (distance first.embedding ≤ distance second.embedding)).map VectorRow.rowid).nodup_iff
    exact rowids.mpr db.embeddings.nodup
  sorted := by
    rw [Db.vectorOrder, List.pairwise_map]
    refine (List.pairwise_mergeSort ?_ ?_ db.embeddings.rows).imp fun ordered =>
      of_decide_eq_true ordered
    · intro first second third nearer farther
      exact decide_eq_true ((of_decide_eq_true nearer).trans (of_decide_eq_true farther))
    · intro first second
      rw [Bool.or_eq_true, decide_eq_true_iff, decide_eq_true_iff]
      exact le_total _ _
  mapped row rowMem := by
    obtain ⟨vector, vectorMem, rfl⟩ := List.mem_map.mp rowMem
    exact mapOk.named vector (List.mem_mergeSort.mp vectorMem)

/-- A search with an accepted query answers with the first hits. -/
theorem searchBatch_answers {db : Db} {capacity dimensions : Nat}
    (capacious : maxVecCandidates ≤ capacity) {distance : Embedding → Embedding → δ}
    {query : Embedding} (valid : validateEmbeddingVector query dimensions db = .ok ((), db))
    {k : Nat} (below : k ≤ maxVecCandidates) :
    ∃ batch, (searchBatch capacity dimensions distance query k db).map Prod.fst = .ok batch ∧
      batch.hits.Perm (db.hitsOf ((db.vectorOrder (distance query)).take k)) ∧
      batch.returnedCount = batch.hits.length := by
  unfold searchBatch
  split
  case isTrue zero =>
    subst zero
    exact ⟨⟨[], 0⟩, rfl, List.Perm.refl _, rfl⟩
  case isFalse =>
    have inRange : k < 2 ^ 63 := lt_of_le_of_lt below (by decide)
    have accepted : k ≤ capacity := below.trans capacious
    rw [Transition.Txn.bind_of_ok valid,
      Transition.Txn.require_bind_of_holds (decide_eq_true inRange),
      Transition.Txn.require_bind_of_holds (decide_eq_true accepted)]
    refine ⟨_, rfl, ?_, rfl⟩
    have joined : db.hitsOf ((db.vectorOrder (distance query)).take k) =
        (Table.join (db.nearest (distance query) k) db.embeddingMap.rows VectorRow.rowid
          EmbeddingMapRow.vecRowid).map fun pair =>
            ⟨pair.2.memoryId, distance query pair.1.embedding⟩ := by
      rw [Db.hitsOf, Db.vectorOrder, ← List.map_take, Table.join_map_left, List.map_map]
      rfl
    rw [joined]
    exact (List.mergeSort_perm _ _).map _

end Embeddings

/-- The hits that a search by embedding ranks. -/
def Db.searchOrder [Host] [LinearOrder δ] (db : Db) (distance : Embedding → δ)
    (ctx : PostFilterContext δ) : List (VectorHit δ) :=
  if ctx.filter.selectsContexts then
    db.hitsOf ((db.vectorOrder distance).filter fun row => db.prefiltered ctx row.1)
  else
    db.hitsOf (db.vectorOrder distance)

theorem nearestAccepted_zero [Host] [LinearOrder δ] (db : Db) (ctx : PostFilterContext δ)
    (order : List (VectorHit δ)) : NearestAccepted db ctx 0 order [] where
  distinct := List.nodup_nil
  bounded := Nat.le_refl 0
  sorted := List.Pairwise.nil
  accepted := by simp
  complete few := absurd few (Nat.lt_irrefl 0)
  nearest := by simp

/-- In every state reachable from a database that opens, a search by a valid
embedding returns the nearest accepted memories. -/
theorem search_by_embedding_nearest [Host] [LinearOrder δ] {file : IndexFile} {opened db : Db}
    {calls : List StoreCall} (openRan : openIndex file = .ok opened)
    (runEq : run storeStep opened calls = some db) {capacity dimensions : Nat}
    (capacious : maxVecCandidates ≤ capacity) (distance : Embedding → Embedding → δ)
    {embedding : Embedding} (valid : validateEmbeddingVector embedding dimensions db = .ok ((), db))
    (now : Instant) (limit : Nat) (filter : MemoryFilter) (principal : Option String)
    (maxDistance : Option δ) :
    let ctx : PostFilterContext δ := ⟨normalizeFilter filter, principal, now, maxDistance⟩
    ∃ results, db.searchByEmbedding capacity dimensions distance now embedding limit filter
        principal maxDistance = .ok results ∧
      NearestAccepted db ctx limit (db.searchOrder (distance embedding) ctx) results := by
  intro ctx
  have ordered := (mapOk_of_run openRan runEq).vectorOrder (distance embedding)
  by_cases zero : limit = 0
  · subst zero
    exact ⟨[], by rw [Db.searchByEmbedding, if_pos rfl]; rfl, nearestAccepted_zero db ctx _⟩
  · cases selects : ctx.filter.selectsContexts with
    | true =>
        obtain ⟨results, ran, nearest⟩ := ordered.filteredEmbeddingSearchLoop_nearest limit ctx
          fun eligible k => (rfl : db.vectorTable (distance embedding) eligible k = _)
        refine ⟨results, ?_, ?_⟩
        · rw [Db.searchByEmbedding, if_neg zero, valid, ← ran]
          exact if_pos selects
        · rwa [Db.searchOrder, if_pos selects]
    | false =>
        obtain ⟨results, ran, nearest⟩ := ordered.embeddingSearchLoop_nearest limit ctx
          fun k below => searchBatch_answers capacious valid below
        refine ⟨results, ?_, ?_⟩
        · rw [Db.searchByEmbedding, if_neg zero, valid, ← ran]
          exact if_neg (Bool.not_eq_true _ ▸ selects)
        · rwa [Db.searchOrder, if_neg (Bool.not_eq_true _ ▸ selects)]

end LocalHold
