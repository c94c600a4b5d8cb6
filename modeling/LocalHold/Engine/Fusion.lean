import LocalHold.Ordered.Ranking
import LocalHold.Relational.Grouping
import LocalHold.Store.PagedScan
import Mathlib.Algebra.Order.BigOperators.Group.List
import Mathlib.Algebra.Order.Field.Basic
import Mathlib.Algebra.Order.Field.Rat
import Mathlib.Data.Prod.Lex
import Mathlib.Tactic.Linarith
import Mathlib.Tactic.Positivity

/-!
# Reciprocal rank fusion

Two ranked result lists are merged by the positions of their results:
`score(d) = Σ weight / (k + rank + 1)`.  A hash map collects one entry for each
memory; its values are sorted by score and then by identifier, and cut off.
Scores are exact rationals.
-/

namespace LocalHold

open Ranking Relational

/-- How a search was executed. -/
inductive SearchMode where
  | auto
  | semantic
  | text
  | keyword
  | hybrid
deriving DecidableEq, Repr

variable {δ : Type}

/-- What the hash map holds for one memory. -/
structure FusionEntry (δ : Type) where
  result : SearchResult δ
  rrfScore : ℚ
  sources : List SearchMode

/-- A search result with its fusion score and the lists it came from. -/
structure FusedResult (δ : Type) where
  result : SearchResult δ
  rrfScore : ℚ
  matchSources : List SearchMode

/-- The fused result of an entry. -/
def FusionEntry.toFused (entry : FusionEntry δ) : FusedResult δ where
  result := entry.result
  rrfScore := entry.rrfScore
  matchSources := entry.sources

/-- The memory of a search result. -/
def SearchResult.id (result : SearchResult δ) : MemoryId :=
  result.memory.id

/-- What a position contributes. -/
def rrfScoreAt (k : Nat) (weight : ℚ) (rank : Nat) : ℚ :=
  weight / (k + rank + 1)

/-- `sources.push` unless the source is there. -/
def addSource (source : SearchMode) (sources : List SearchMode) : List SearchMode :=
  if source ∈ sources then sources else sources ++ [source]

/-- One pass of the loop of `accumulate_rrf`. -/
def accumulateResult (k : Nat) (weight : ℚ) (source : SearchMode)
    (entries : MemoryId → Option (FusionEntry δ)) (ranked : SearchResult δ × Nat) :
    MemoryId → Option (FusionEntry δ) :=
  let entry := (entries ranked.1.id).getD ⟨ranked.1, 0, []⟩
  Function.update entries ranked.1.id (some
    { entry with
      rrfScore := entry.rrfScore + rrfScoreAt k weight ranked.2
      sources := addSource source entry.sources })

/-- Accumulate the scores of a ranked result list. -/
def accumulateRrf (entries : MemoryId → Option (FusionEntry δ)) (results : List (SearchResult δ))
    (k : Nat) (weight : ℚ) (source : SearchMode) : MemoryId → Option (FusionEntry δ) :=
  results.zipIdx.foldl (accumulateResult k weight source) entries

/-- The entries after both lists. -/
def fusionEntries (semanticResults ftsResults : List (SearchResult δ)) (k : Nat)
    (semanticWeight ftsWeight : ℚ) : MemoryId → Option (FusionEntry δ) :=
  accumulateRrf (accumulateRrf (fun _ => none) semanticResults k semanticWeight .semantic)
    ftsResults k ftsWeight .keyword

/-- What fused results are sorted by, the largest first. -/
def fusionKey (fused : FusedResult δ) : ℚ ×ₗ MemoryId :=
  toLex (fused.rrfScore, fused.result.id)

/-- Merge two ranked result lists. -/
def reciprocalRankFusion (semanticResults ftsResults : List (SearchResult δ)) (k : Nat)
    (semanticWeight ftsWeight : ℚ) (iteration : Iteration MemoryId) (limit : Nat) :
    List (FusedResult δ) :=
  let entries := fusionEntries semanticResults ftsResults k semanticWeight ftsWeight
  let ids := ((semanticResults ++ ftsResults).map SearchResult.id).dedup
  let fused := (iteration.arrange ids).filterMap fun id => (entries id).map FusionEntry.toFused
  (rankBy fusionKey fused).take limit

/-! ## One entry -/

/-- The positions of a memory in a ranked list. -/
def occurrences (results : List (SearchResult δ)) (id : MemoryId) : List (SearchResult δ × Nat) :=
  results.zipIdx.filter fun ranked => decide (ranked.1.id = id)

/-- What a ranked list contributes to a memory. -/
def occurrenceScore (k : Nat) (weight : ℚ) (results : List (SearchResult δ)) (id : MemoryId) : ℚ :=
  ((occurrences results id).map fun ranked => rrfScoreAt k weight ranked.2).sum

/-- An entry after the occurrences of its memory in a list. -/
def grownEntry (k : Nat) (weight : ℚ) (source : SearchMode)
    (entry : Option (FusionEntry δ)) : List (SearchResult δ × Nat) → Option (FusionEntry δ)
  | [] => entry
  | first :: rest =>
      let started := entry.getD ⟨first.1, 0, []⟩
      some
        { started with
          rrfScore := started.rrfScore +
            ((first :: rest).map fun ranked => rrfScoreAt k weight ranked.2).sum
          sources := addSource source started.sources }

theorem addSource_addSource (source : SearchMode) (sources : List SearchMode) :
    addSource source (addSource source sources) = addSource source sources := by
  have member : source ∈ addSource source sources := by
    rw [addSource]
    split
    · assumption
    · exact List.mem_append_right _ (List.mem_singleton.mpr rfl)
  rw [addSource, if_pos member]

theorem mem_addSource {source other : SearchMode} {sources : List SearchMode} :
    other ∈ addSource source sources ↔ other ∈ sources ∨ other = source := by
  rw [addSource]
  split
  · next present =>
    constructor
    · exact Or.inl
    · rintro (member | rfl)
      · exact member
      · exact present
  · rw [List.mem_append, List.mem_singleton]

theorem nodup_addSource {source : SearchMode} {sources : List SearchMode} (each : sources.Nodup) :
    (addSource source sources).Nodup := by
  rw [addSource]
  split
  · exact each
  · next absent =>
    rw [List.nodup_append]
    refine ⟨each, List.nodup_singleton _, fun first firstMem second secondMem same => ?_⟩
    rw [same, List.mem_singleton.mp secondMem] at firstMem
    exact absent firstMem

/-- An entry depends on the occurrences of its memory only. -/
theorem foldl_accumulateResult (k : Nat) (weight : ℚ) (source : SearchMode)
    (rows : List (SearchResult δ × Nat)) (entries : MemoryId → Option (FusionEntry δ))
    (id : MemoryId) :
    rows.foldl (accumulateResult k weight source) entries id =
      grownEntry k weight source (entries id)
        (rows.filter fun ranked => decide (ranked.1.id = id)) := by
  induction rows generalizing entries with
  | nil => rfl
  | cons row rows inductionHypothesis =>
      rw [List.foldl_cons, inductionHypothesis]
      by_cases same : row.1.id = id
      · subst same
        rw [List.filter_cons_of_pos (by simp), accumulateResult, Function.update_self]
        cases later : rows.filter fun ranked => decide (ranked.1.id = row.1.id) with
        | nil => simp [grownEntry]
        | cons next others =>
            simp [grownEntry, addSource_addSource, add_assoc]
      · rw [List.filter_cons_of_neg (by simpa using same), accumulateResult,
          Function.update_of_ne (Ne.symm same)]

theorem accumulateRrf_apply (entries : MemoryId → Option (FusionEntry δ))
    (results : List (SearchResult δ)) (k : Nat) (weight : ℚ) (source : SearchMode)
    (id : MemoryId) :
    accumulateRrf entries results k weight source id =
      grownEntry k weight source (entries id) (occurrences results id) :=
  foldl_accumulateResult k weight source results.zipIdx entries id

theorem of_mem_occurrences {results : List (SearchResult δ)} {id : MemoryId}
    {ranked : SearchResult δ × Nat} (member : ranked ∈ occurrences results id) :
    results[ranked.2]? = some ranked.1 ∧ ranked.1.id = id := by
  obtain ⟨listed, named⟩ := List.mem_filter.mp member
  exact ⟨List.mem_zipIdx_iff_getElem?.mp listed, of_decide_eq_true named⟩

theorem mem_occurrences_of_getElem? {results : List (SearchResult δ)} {rank : Nat}
    {result : SearchResult δ} (found : results[rank]? = some result) :
    (result, rank) ∈ occurrences results result.id :=
  List.mem_filter.mpr ⟨List.mem_zipIdx_iff_getElem?.mpr found, decide_eq_true rfl⟩

theorem occurrences_ne_nil_iff {results : List (SearchResult δ)} {id : MemoryId} :
    occurrences results id ≠ [] ↔ id ∈ results.map SearchResult.id := by
  constructor
  · intro some
    obtain ⟨ranked, member⟩ := List.exists_mem_of_ne_nil _ some
    obtain ⟨found, named⟩ := of_mem_occurrences member
    exact List.mem_map.mpr ⟨ranked.1, List.mem_of_getElem? found, named⟩
  · intro listed
    obtain ⟨result, member, rfl⟩ := List.mem_map.mp listed
    obtain ⟨rank, found⟩ := List.mem_iff_getElem?.mp member
    exact List.ne_nil_of_mem (mem_occurrences_of_getElem? found)

/-! ## The entries after both lists -/

section Entries

variable {semanticResults ftsResults : List (SearchResult δ)} {k : Nat}
  {semanticWeight ftsWeight : ℚ} {id : MemoryId}

/-- A memory has an entry when it occurs in a list. -/
theorem exists_fusionEntry_iff :
    (∃ entry, fusionEntries semanticResults ftsResults k semanticWeight ftsWeight id = some entry) ↔
      id ∈ (semanticResults ++ ftsResults).map SearchResult.id := by
  rw [List.map_append, List.mem_append, ← occurrences_ne_nil_iff, ← occurrences_ne_nil_iff,
    fusionEntries, accumulateRrf_apply, accumulateRrf_apply]
  cases occurrences semanticResults id with
  | nil =>
      cases occurrences ftsResults id with
      | nil => simp [grownEntry]
      | cons first rest => simp [grownEntry]
  | cons first rest =>
      cases occurrences ftsResults id with
      | nil => simp [grownEntry]
      | cons second others => simp [grownEntry]

/-- What an entry says about its memory. -/
structure FusionEntry.Describes (semanticResults ftsResults : List (SearchResult δ)) (k : Nat)
    (semanticWeight ftsWeight : ℚ) (id : MemoryId) (entry : FusionEntry δ) : Prop where
  named : entry.result.id = id
  /-- The result of the semantic list, if the memory is there. -/
  carried : entry.result ∈ semanticResults ∨
    (entry.result ∈ ftsResults ∧ id ∉ semanticResults.map SearchResult.id)
  scored : entry.rrfScore = occurrenceScore k semanticWeight semanticResults id +
    occurrenceScore k ftsWeight ftsResults id
  each : entry.sources.Nodup
  sourced : ∀ source, source ∈ entry.sources ↔
    (source = .semantic ∧ id ∈ semanticResults.map SearchResult.id) ∨
      (source = .keyword ∧ id ∈ ftsResults.map SearchResult.id)

theorem fusionEntries_describes {entry : FusionEntry δ}
    (found : fusionEntries semanticResults ftsResults k semanticWeight ftsWeight id = some entry) :
    entry.Describes semanticResults ftsResults k semanticWeight ftsWeight id := by
  rw [fusionEntries, accumulateRrf_apply, accumulateRrf_apply] at found
  have semanticMem := @occurrences_ne_nil_iff _ semanticResults id
  have ftsMem := @occurrences_ne_nil_iff _ ftsResults id
  cases semantic : occurrences semanticResults id with
  | nil =>
      rw [semantic] at found semanticMem
      have absent : id ∉ semanticResults.map SearchResult.id := fun listed =>
        semanticMem.mpr listed rfl
      cases keyword : occurrences ftsResults id with
      | nil =>
          rw [keyword] at found
          cases found
      | cons first rest =>
          rw [keyword] at found ftsMem
          have listed := ftsMem.mp (List.cons_ne_nil _ _)
          have member : first ∈ occurrences ftsResults id := by
            rw [keyword]
            exact List.mem_cons_self
          obtain ⟨ranked, named⟩ := of_mem_occurrences member
          cases found
          refine ⟨named, Or.inr ⟨List.mem_of_getElem? ranked, absent⟩, ?_, ?_, fun source => ?_⟩
          · rw [occurrenceScore, occurrenceScore, semantic, keyword]
            rfl
          · exact nodup_addSource List.nodup_nil
          · simp only [grownEntry, Option.getD_none, mem_addSource, List.not_mem_nil, false_or,
              absent, and_false, listed, and_true]
  | cons first rest =>
      rw [semantic] at found semanticMem
      have present := semanticMem.mp (List.cons_ne_nil _ _)
      have member : first ∈ occurrences semanticResults id := by
        rw [semantic]
        exact List.mem_cons_self
      obtain ⟨ranked, named⟩ := of_mem_occurrences member
      cases keyword : occurrences ftsResults id with
      | nil =>
          rw [keyword] at found ftsMem
          have absent : id ∉ ftsResults.map SearchResult.id := fun listed =>
            ftsMem.mpr listed rfl
          cases found
          refine ⟨named, Or.inl (List.mem_of_getElem? ranked), ?_, ?_, fun source => ?_⟩
          · rw [occurrenceScore, occurrenceScore, semantic, keyword]
            change 0 + _ = _ + 0
            rw [zero_add, add_zero]
          · exact nodup_addSource List.nodup_nil
          · simp only [Option.getD_none, mem_addSource, List.not_mem_nil, false_or, absent,
              and_false, or_false, present, and_true]
      | cons second others =>
          rw [keyword] at found ftsMem
          have listed := ftsMem.mp (List.cons_ne_nil _ _)
          cases found
          refine ⟨named, Or.inl (List.mem_of_getElem? ranked), ?_, ?_, fun source => ?_⟩
          · rw [occurrenceScore, occurrenceScore, semantic, keyword]
            change 0 + _ + _ = _
            rw [zero_add]
          · change (addSource SearchMode.keyword (addSource SearchMode.semantic [])).Nodup
            exact nodup_addSource (nodup_addSource List.nodup_nil)
          · simp only [grownEntry, Option.getD_none, Option.getD_some, mem_addSource,
              List.not_mem_nil, false_or, listed, present, and_true]

end Entries

/-! ## Scores -/

section Scores

variable {k : Nat} {weight : ℚ} {results : List (SearchResult δ)}

theorem rrfScoreAt_nonneg (nonneg : 0 ≤ weight) (rank : Nat) : 0 ≤ rrfScoreAt k weight rank := by
  rw [rrfScoreAt]
  positivity

/-- An earlier position scores at least as much. -/
theorem rrfScoreAt_anti (nonneg : 0 ≤ weight) {rank later : Nat} (ordered : rank ≤ later) :
    rrfScoreAt k weight later ≤ rrfScoreAt k weight rank := by
  have positive : (0 : ℚ) < k + rank + 1 := by positivity
  have cast : (rank : ℚ) ≤ later := by exact_mod_cast ordered
  rw [rrfScoreAt, rrfScoreAt]
  apply div_le_div_of_nonneg_left nonneg positive
  linarith

theorem occurrenceScore_nonneg (nonneg : 0 ≤ weight) (id : MemoryId) :
    0 ≤ occurrenceScore k weight results id := by
  apply List.sum_nonneg
  intro score scoreMem
  obtain ⟨ranked, -, rfl⟩ := List.mem_map.mp scoreMem
  exact rrfScoreAt_nonneg nonneg ranked.2

/-- The rank of a memory in a list. -/
def RankedAt (results : List (SearchResult δ)) (id : MemoryId) (rank : Nat) : Prop :=
  (results[rank]?).map SearchResult.id = some id

/-- A memory scores at least what one of its positions contributes. -/
theorem rrfScoreAt_le_occurrenceScore (nonneg : 0 ≤ weight) {id : MemoryId} {rank : Nat}
    (ranked : RankedAt results id rank) :
    rrfScoreAt k weight rank ≤ occurrenceScore k weight results id := by
  obtain ⟨result, found, rfl⟩ := Option.map_eq_some_iff.mp ranked
  refine List.single_le_sum (fun score scoreMem => ?_) _
    (List.mem_map.mpr ⟨(result, rank), mem_occurrences_of_getElem? found, rfl⟩)
  obtain ⟨other, -, rfl⟩ := List.mem_map.mp scoreMem
  exact rrfScoreAt_nonneg nonneg other.2

theorem rankedAt_of_mem_occurrences {id : MemoryId} {ranked : SearchResult δ × Nat}
    (member : ranked ∈ occurrences results id) : RankedAt results id ranked.2 := by
  obtain ⟨found, named⟩ := of_mem_occurrences member
  rw [RankedAt, found, Option.map_some, named]

/-- Without repeats a memory has one position. -/
theorem RankedAt.unique (each : (results.map SearchResult.id).Nodup) {id : MemoryId}
    {rank other : Nat} (first : RankedAt results id rank) (second : RankedAt results id other) :
    rank = other := by
  rw [RankedAt, ← List.getElem?_map] at first second
  have inside : rank < (results.map SearchResult.id).length := by
    by_contra outside
    rw [List.getElem?_eq_none (Nat.not_lt.mp outside)] at first
    cases first
  exact (List.getElem?_inj inside each).mp (first.trans second.symm)

/-- Without repeats a memory occurs at most once. -/
theorem occurrences_of_nodup (each : (results.map SearchResult.id).Nodup) (id : MemoryId) :
    occurrences results id = [] ∨
      ∃ ranked, occurrences results id = [ranked] ∧ RankedAt results id ranked.2 := by
  have positions : (results.zipIdx.map Prod.snd).Nodup := by
    rw [List.zipIdx_map_snd]
    exact List.nodup_range'
  have distinct : ((occurrences results id).map Prod.snd).Nodup :=
    positions.sublist (List.filter_sublist.map Prod.snd)
  cases listed : occurrences results id with
  | nil => exact Or.inl rfl
  | cons first rest =>
      have firstMem : first ∈ occurrences results id := by
        rw [listed]
        exact List.mem_cons_self
      right
      refine ⟨first, ?_, rankedAt_of_mem_occurrences firstMem⟩
      cases rest with
      | nil => rfl
      | cons second others =>
          have secondMem : second ∈ occurrences results id := by
            rw [listed]
            exact List.mem_cons_of_mem first List.mem_cons_self
          have same : first.2 = second.2 := (rankedAt_of_mem_occurrences firstMem).unique each
            (rankedAt_of_mem_occurrences secondMem)
          rw [listed, List.map_cons, List.map_cons, List.nodup_cons, same] at distinct
          exact absurd List.mem_cons_self distinct.1

/-- One memory is ranked no worse than another. -/
def NoWorse (results : List (SearchResult δ)) (id other : MemoryId) : Prop :=
  ∀ later, RankedAt results other later → ∃ rank ≤ later, RankedAt results id rank

/-- A memory that is ranked no worse scores no less. -/
theorem occurrenceScore_le_of_noWorse (nonneg : 0 ≤ weight)
    (each : (results.map SearchResult.id).Nodup) {id other : MemoryId}
    (noWorse : NoWorse results id other) :
    occurrenceScore k weight results other ≤ occurrenceScore k weight results id := by
  rcases occurrences_of_nodup each other with none | ⟨ranked, single, rankedAt⟩
  · have zero : occurrenceScore k weight results other = 0 := by
      rw [occurrenceScore, none]
      rfl
    rw [zero]
    exact occurrenceScore_nonneg nonneg id
  · have only : occurrenceScore k weight results other = rrfScoreAt k weight ranked.2 := by
      rw [occurrenceScore, single, List.map_singleton, List.sum_singleton]
    obtain ⟨rank, ordered, found⟩ := noWorse ranked.2 rankedAt
    calc occurrenceScore k weight results other
        = rrfScoreAt k weight ranked.2 := only
      _ ≤ rrfScoreAt k weight rank := rrfScoreAt_anti nonneg ordered
      _ ≤ occurrenceScore k weight results id := rrfScoreAt_le_occurrenceScore nonneg found

end Scores

/-! ## The fused list -/

section Fused

variable (semanticResults ftsResults : List (SearchResult δ)) (k : Nat)
  (semanticWeight ftsWeight : ℚ)

/-- The fused results of some memories. -/
def fusedResults (ids : List MemoryId) : List (FusedResult δ) :=
  ids.filterMap fun id =>
    (fusionEntries semanticResults ftsResults k semanticWeight ftsWeight id).map
      FusionEntry.toFused

/-- Each memory of the lists gives one fused result. -/
theorem map_id_fusedResults {ids : List MemoryId}
    (known : ∀ id ∈ ids, id ∈ (semanticResults ++ ftsResults).map SearchResult.id) :
    (fusedResults semanticResults ftsResults k semanticWeight ftsWeight ids).map
      (fun item => item.result.id) = ids := by
  have each : ∀ id ∈ ids, ((fusionEntries semanticResults ftsResults k semanticWeight ftsWeight
      id).map FusionEntry.toFused).map (fun item => item.result.id) = some id := by
    intro id idMem
    obtain ⟨entry, found⟩ := exists_fusionEntry_iff.mpr (known id idMem)
    rw [found, Option.map_some, Option.map_some]
    exact congrArg some (fusionEntries_describes found).named
  rw [fusedResults, List.map_filterMap, List.filterMap_congr each, List.filterMap_some]

theorem describes_of_mem_fusedResults {ids : List MemoryId} {item : FusedResult δ}
    (member : item ∈ fusedResults semanticResults ftsResults k semanticWeight ftsWeight ids) :
    ∃ entry : FusionEntry δ, entry.toFused = item ∧
      entry.Describes semanticResults ftsResults k semanticWeight ftsWeight item.result.id := by
  obtain ⟨id, -, listed⟩ := List.mem_filterMap.mp member
  obtain ⟨entry, found, rfl⟩ := Option.map_eq_some_iff.mp listed
  have describes := fusionEntries_describes found
  have named : entry.toFused.result.id = id := describes.named
  exact ⟨entry, rfl, named ▸ describes⟩

/-- The fused result of each memory of the two lists. -/
def fusedValues : List (FusedResult δ) :=
  fusedResults semanticResults ftsResults k semanticWeight ftsWeight
    ((semanticResults ++ ftsResults).map SearchResult.id).dedup

theorem map_id_fusedValues :
    (fusedValues semanticResults ftsResults k semanticWeight ftsWeight).map
      (fun item => item.result.id) =
    ((semanticResults ++ ftsResults).map SearchResult.id).dedup :=
  map_id_fusedResults semanticResults ftsResults k semanticWeight ftsWeight
    fun _ idMem => List.mem_dedup.mp idMem

theorem nodup_ids_fusedValues :
    ((fusedValues semanticResults ftsResults k semanticWeight ftsWeight).map
      fun item => item.result.id).Nodup := by
  rw [map_id_fusedValues]
  exact List.nodup_dedup _

/-- The key of the order tells the fused results apart. -/
theorem eq_of_fusionKey_eq :
    ∀ first ∈ fusedValues semanticResults ftsResults k semanticWeight ftsWeight,
      ∀ second ∈ fusedValues semanticResults ftsResults k semanticWeight ftsWeight,
        fusionKey first = fusionKey second → first = second := by
  intro first firstMem second secondMem same
  have sameId : first.result.id = second.result.id := congrArg (fun key => (ofLex key).2) same
  exact List.inj_on_of_nodup_map
    (nodup_ids_fusedValues semanticResults ftsResults k semanticWeight ftsWeight) firstMem
    secondMem sameId

/-- By falling score and identifier. -/
theorem pairwise_rankBy_fusedValues :
    (rankBy fusionKey (fusedValues semanticResults ftsResults k semanticWeight
      ftsWeight)).Pairwise fun first second => second.rrfScore < first.rrfScore ∨
        (second.rrfScore = first.rrfScore ∧ second.result.id < first.result.id) := by
  have distinct := nodup_ids_fusedValues semanticResults ftsResults k semanticWeight ftsWeight
  have each : (rankBy fusionKey (fusedValues semanticResults ftsResults k semanticWeight
      ftsWeight)).Nodup := (perm_rankBy fusionKey _).nodup_iff.mpr distinct.of_map
  refine List.Pairwise.imp_of_mem (fun {first second} firstMem secondMem ordered => ?_)
    ((pairwise_rankBy fusionKey _).and each)
  have below : fusionKey second < fusionKey first := lt_of_le_of_ne ordered.1 fun same =>
    ordered.2 (eq_of_fusionKey_eq semanticResults ftsResults k semanticWeight ftsWeight first
      (mem_rankBy.mp firstMem) second (mem_rankBy.mp secondMem) same.symm)
  exact Prod.Lex.lt_iff.mp below

end Fused

/-- A memory that is ranked no worse in both lists has no lower score. -/
theorem FusionEntry.Describes.rrfScore_le {semanticResults ftsResults : List (SearchResult δ)}
    {k : Nat} {semanticWeight ftsWeight : ℚ} {entry other : FusionEntry δ} {id otherId : MemoryId}
    (described : entry.Describes semanticResults ftsResults k semanticWeight ftsWeight id)
    (otherDescribed :
      other.Describes semanticResults ftsResults k semanticWeight ftsWeight otherId)
    (semanticNonneg : 0 ≤ semanticWeight) (ftsNonneg : 0 ≤ ftsWeight)
    (semanticEach : (semanticResults.map SearchResult.id).Nodup)
    (ftsEach : (ftsResults.map SearchResult.id).Nodup)
    (semantic : NoWorse semanticResults id otherId) (keyword : NoWorse ftsResults id otherId) :
    other.rrfScore ≤ entry.rrfScore :=
  calc other.rrfScore
      = occurrenceScore k semanticWeight semanticResults otherId +
          occurrenceScore k ftsWeight ftsResults otherId := otherDescribed.scored
    _ ≤ occurrenceScore k semanticWeight semanticResults id +
          occurrenceScore k ftsWeight ftsResults id :=
        add_le_add (occurrenceScore_le_of_noWorse semanticNonneg semanticEach semantic)
          (occurrenceScore_le_of_noWorse ftsNonneg ftsEach keyword)
    _ = entry.rrfScore := described.scored.symm

/-- Fusion lists each memory of the two lists once, with its score, its sources
and the result of the semantic list where there is one, by falling score and
identifier; the order of the hash map does not matter; a memory ranked no worse
in both lists scores no less; and truncation keeps the best. -/
theorem rank_fusion (semanticResults ftsResults : List (SearchResult δ)) (k : Nat)
    (semanticWeight ftsWeight : ℚ) (semanticNonneg : 0 ≤ semanticWeight)
    (ftsNonneg : 0 ≤ ftsWeight)
    (semanticEach : (semanticResults.map SearchResult.id).Nodup)
    (ftsEach : (ftsResults.map SearchResult.id).Nodup) :
    ∃ fused : List (FusedResult δ),
      (∀ iteration limit, reciprocalRankFusion semanticResults ftsResults k semanticWeight
        ftsWeight iteration limit = fused.take limit) ∧
      (fused.map fun item => item.result.id).Nodup ∧
      (∀ id, id ∈ fused.map (fun item => item.result.id) ↔
        id ∈ semanticResults.map SearchResult.id ∨ id ∈ ftsResults.map SearchResult.id) ∧
      (∀ item ∈ fused,
        (item.result ∈ semanticResults ∨
          (item.result ∈ ftsResults ∧ item.result.id ∉ semanticResults.map SearchResult.id)) ∧
        item.rrfScore = occurrenceScore k semanticWeight semanticResults item.result.id +
          occurrenceScore k ftsWeight ftsResults item.result.id ∧
        item.matchSources.Nodup ∧
        ∀ source, source ∈ item.matchSources ↔
          (source = .semantic ∧ item.result.id ∈ semanticResults.map SearchResult.id) ∨
            (source = .keyword ∧ item.result.id ∈ ftsResults.map SearchResult.id)) ∧
      (fused.Pairwise fun first second => second.rrfScore < first.rrfScore ∨
        (second.rrfScore = first.rrfScore ∧ second.result.id < first.result.id)) ∧
      (∀ first ∈ fused, ∀ second ∈ fused,
        NoWorse semanticResults first.result.id second.result.id →
        NoWorse ftsResults first.result.id second.result.id →
          second.rrfScore ≤ first.rrfScore) ∧
      ∀ limit, ∀ kept ∈ fused.take limit, ∀ dropped ∈ fused.drop limit,
        dropped.rrfScore ≤ kept.rrfScore := by
  let values := fusedValues semanticResults ftsResults k semanticWeight ftsWeight
  have sorted := pairwise_rankBy_fusedValues semanticResults ftsResults k semanticWeight ftsWeight
  have describes {item : FusedResult δ} (member : item ∈ rankBy fusionKey values) :=
    describes_of_mem_fusedResults semanticResults ftsResults k semanticWeight ftsWeight
      (mem_rankBy.mp member)
  refine ⟨rankBy fusionKey values, fun iteration limit => ?_, ?_, fun id => ?_,
    fun item itemMem => ?_, sorted, fun first firstMem second secondMem semantic keyword => ?_,
    fun limit kept keptMem dropped droppedMem => ?_⟩
  · have arranged := rankBy_eq_of_perm ((iteration.perm _).symm.filterMap fun id =>
      (fusionEntries semanticResults ftsResults k semanticWeight ftsWeight id).map
        FusionEntry.toFused)
      (eq_of_fusionKey_eq semanticResults ftsResults k semanticWeight ftsWeight)
    exact congrArg (List.take limit) arranged.symm
  · exact ((perm_rankBy fusionKey values).map _).nodup_iff.mpr
      (nodup_ids_fusedValues semanticResults ftsResults k semanticWeight ftsWeight)
  · rw [((perm_rankBy fusionKey values).map _).mem_iff, map_id_fusedValues, List.mem_dedup,
      List.map_append, List.mem_append]
  · obtain ⟨entry, rfl, described⟩ := describes itemMem
    exact ⟨described.carried, described.scored, described.each, described.sourced⟩
  · obtain ⟨entry, rfl, described⟩ := describes firstMem
    obtain ⟨other, rfl, otherDescribed⟩ := describes secondMem
    exact described.rrfScore_le otherDescribed semanticNonneg ftsNonneg semanticEach ftsEach
      semantic keyword
  · have ordered := sorted
    rw [← List.take_append_drop limit (rankBy fusionKey _)] at ordered
    rcases (List.pairwise_append.mp ordered).2.2 kept keptMem dropped droppedMem with
      below | ⟨same, -⟩
    · exact below.le
    · exact same.le

/-- A result without a distance. -/
def plainResult (number : Nat) : SearchResult ℚ :=
  ⟨Memory.plain ⟨number⟩ "agent" "note" 0, none⟩

/-- Two memories, one of them in both lists. -/
theorem rank_fusion_shared :
    ∃ fused : List (FusedResult ℚ),
      (∀ iteration, reciprocalRankFusion [plainResult 1, plainResult 2] [plainResult 2] 60 1 1
        iteration 10 = fused.take 10) ∧
      (fused.map fun item => item.result.id).Nodup ∧
      ⟨2⟩ ∈ fused.map (fun item => item.result.id) ∧
      ∀ item ∈ fused, item.result.id = ⟨2⟩ →
        .semantic ∈ item.matchSources ∧ .keyword ∈ item.matchSources := by
  obtain ⟨fused, listed, each, known, described, -⟩ := rank_fusion
    [plainResult 1, plainResult 2] [plainResult 2] 60 1 1 zero_le_one zero_le_one (by decide)
    (by decide)
  refine ⟨fused, fun iteration => listed iteration 10, each, (known ⟨2⟩).mpr (by decide),
    fun item itemMem named => ?_⟩
  obtain ⟨-, -, -, sources⟩ := described item itemMem
  rw [named] at sources
  exact ⟨(sources .semantic).mpr (by decide), (sources .keyword).mpr (by decide)⟩

end LocalHold
