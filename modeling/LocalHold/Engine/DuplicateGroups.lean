import LocalHold.Graph.UnionFind
import LocalHold.Ordered.Ranking
import LocalHold.Relational.Grouping
import LocalHold.Store.Crud
import Mathlib.Algebra.Field.Rat
import Mathlib.Data.Fintype.Fin
import Mathlib.Data.List.FinRange
import Mathlib.Data.Prod.Lex

/-!
# Groups of near duplicates

Neighbour pairs are the edges of a graph on the candidates.  Union-find turns
them into groups: one for each connected component of two or more candidates,
with the candidate used last as its representative and the mean similarity of
the pairs inside it.  Similarities are exact rationals.
-/

namespace LocalHold

open Graph Ranking Relational

/-- A memory as `list_memories_with_embeddings` returns it. -/
structure ConsolidationCandidate extends MemoryWithEmbedding where
  /-- The direct memberships, in primary order. -/
  contextIds : List ContextId

/-- The identifier of a candidate. -/
def ConsolidationCandidate.id (candidate : ConsolidationCandidate) : MemoryId :=
  candidate.memory.id

/-- What `cmp_duplicate_representative` compares, in this order: the last use,
the last update, the identifier. -/
def representativeKey (memory : Memory) : Instant ×ₗ Instant ×ₗ MemoryId :=
  toLex (memory.lastUsedAt.getD memory.updatedAt, toLex (memory.updatedAt, memory.id))

/-- A group of near-duplicate memories. -/
structure DuplicateGroup where
  representativeId : MemoryId
  memberIds : List MemoryId
  similarity : ℚ
  memberCount : Nat

/-- A neighbour pair discovered by a vector search. -/
structure NeighborPair where
  idA : MemoryId
  idB : MemoryId
  similarity : ℚ
deriving DecidableEq

/-! ## Reading the pairs -/

section Pairs

variable (memories : List ConsolidationCandidate)

/-- The identifier at an index. -/
def idAt (i : Fin memories.length) : MemoryId :=
  (memories.get i).id

/-- The map from identifiers to indices. -/
def idToIdx : MemoryId → Option (Fin memories.length) :=
  collect ((List.finRange memories.length).map fun i => (idAt memories i, i))

/-- The indices of a pair of two different candidates. -/
def NeighborPair.ends (pair : NeighborPair) : Option (Fin memories.length × Fin memories.length) :=
  match idToIdx memories pair.idA, idToIdx memories pair.idB with
  | some i, some j => if i = j then none else some (i, j)
  | _, _ => none

/-- The similarity of two indices, the smaller index first. -/
def NeighborPair.edge (pair : NeighborPair) (i j : Fin memories.length) :
    Fin memories.length × Fin memories.length × ℚ :=
  if i < j then (i, j, pair.similarity) else (j, i, pair.similarity)

/-- One pass of the loop over the pairs. -/
def readPair
    (state : Forest (Fin memories.length) × List (Fin memories.length × Fin memories.length × ℚ))
    (pair : NeighborPair) :
    Forest (Fin memories.length) × List (Fin memories.length × Fin memories.length × ℚ) :=
  match pair.ends memories with
  | none => state
  | some (i, j) => (state.1.union i j, state.2 ++ [pair.edge memories i j])

/-- The similarities that the loop collects. -/
def pairSimilarities (pairs : List NeighborPair) :
    List (Fin memories.length × Fin memories.length × ℚ) :=
  pairs.filterMap fun pair =>
    (pair.ends memories).map fun ends => pair.edge memories ends.1 ends.2

end Pairs

/-! ## Collecting the groups -/

/-- Add a similarity to the sum and the count of its root. -/
def addSimilarity {ι : Type} [DecidableEq ι] (sums : ι → ℚ × Nat) (row : ι × ℚ) : ι → ℚ × Nat :=
  Function.update sums row.1 ((sums row.1).1 + row.2, (sums row.1).2 + 1)

/-- Sum and count the similarities of each root, found after all unions. -/
def groupSimilarities {n : Nat} (forest : Forest (Fin n))
    (pairSimilarities : List (Fin n × Fin n × ℚ)) : Fin n → ℚ × Nat :=
  let roots := forest.findEach (pairSimilarities.map Prod.fst)
  (roots.1.zip (pairSimilarities.map fun pair => pair.2.2)).foldl addSimilarity fun _ => (0, 0)

/-- The average of a sum; zero without pairs. -/
def averageSimilarity (sum : ℚ × Nat) : ℚ :=
  if 0 < sum.2 then sum.1 / sum.2 else 0

/-- The identifiers of some indices, sorted. -/
def sortedIds (memories : List ConsolidationCandidate) (members : List (Fin memories.length)) :
    List MemoryId :=
  orderBy (fun first second => decide (first ≤ second)) (members.map (idAt memories))

/-- The group of some member indices; `none` is the panic of `expect`. -/
def buildDuplicateGroup (memories : List ConsolidationCandidate)
    (members : List (Fin memories.length)) (similarity : ℚ) : Option DuplicateGroup :=
  (lastMaxBy (fun i => representativeKey (memories.get i).memory) members).map
    fun representative =>
      { representativeId := idAt memories representative
        memberIds := sortedIds memories members
        similarity := similarity
        memberCount := members.length }

/-- The groups of the trees of a forest, in the order in which the hash map of
the members lists them.  Every `uf_find` changes the forest for the next. -/
def groupsOfForest (memories : List ConsolidationCandidate)
    (forest : Forest (Fin memories.length))
    (pairSimilarities : List (Fin memories.length × Fin memories.length × ℚ))
    (iteration : Iteration (Fin memories.length × List (Fin memories.length))) :
    List DuplicateGroup :=
  let indices := List.finRange memories.length
  let roots := forest.findEach indices
  let groupMembers := Groups.entries (roots.1.zip indices)
  let similarities := groupSimilarities roots.2 pairSimilarities
  ((iteration.arrange groupMembers).filter fun group => decide (2 ≤ group.2.length)).filterMap
    fun group => buildDuplicateGroup memories group.2 (averageSimilarity (similarities group.1))

/-- What the groups are sorted by, the largest first: the number of members,
the similarity, the representative. -/
def groupKey (group : DuplicateGroup) : Nat ×ₗ ℚ ×ₗ MemoryId :=
  toLex (group.memberCount, toLex (group.similarity, group.representativeId))

/-- Find groups of near-duplicate memories from neighbour pairs. -/
def findDuplicateGroupsFromPairs (memories : List ConsolidationCandidate)
    (pairs : List NeighborPair)
    (iteration : Iteration (Fin memories.length × List (Fin memories.length)))
    (maxGroups : Nat) : List DuplicateGroup :=
  if memories.length < 2 ∨ pairs.isEmpty then
    []
  else
    let read := pairs.foldl (readPair memories) (Forest.discrete, [])
    (rankBy groupKey (groupsOfForest memories read.1 read.2 iteration)).take maxGroups

/-! ## The graph of the pairs -/

section Graph

variable (memories : List ConsolidationCandidate) (pairs : List NeighborPair)

/-- A pair joins two candidates. -/
def Linked (first second : MemoryId) : Prop :=
  first ∈ memories.map ConsolidationCandidate.id ∧
    second ∈ memories.map ConsolidationCandidate.id ∧
      ∃ pair ∈ pairs, pair.idA = first ∧ pair.idB = second

/-- Two memories of one connected component. -/
def Connected : MemoryId → MemoryId → Prop :=
  Relation.EqvGen (Linked memories pairs)

/-- A pair of two different members. -/
def NeighborPair.Inside (memberIds : List MemoryId) (pair : NeighborPair) : Prop :=
  pair.idA ∈ memberIds ∧ pair.idB ∈ memberIds ∧ pair.idA ≠ pair.idB

instance (memberIds : List MemoryId) : DecidablePred (NeighborPair.Inside memberIds) :=
  fun pair => inferInstanceAs
    (Decidable (pair.idA ∈ memberIds ∧ pair.idB ∈ memberIds ∧ pair.idA ≠ pair.idB))

def pairsInside (memberIds : List MemoryId) : List NeighborPair :=
  pairs.filter fun pair => decide (pair.Inside memberIds)

/-- The mean similarity of some pairs. -/
def meanSimilarity : ℚ :=
  (pairs.map NeighborPair.similarity).sum / pairs.length

/-- A group describes one connected component of at least two memories. -/
structure DuplicateGroup.Describes (group : DuplicateGroup) : Prop where
  /-- Each member once, in rising order. -/
  sorted : group.memberIds.Pairwise (· < ·)
  component : ∀ id ∈ group.memberIds, ∀ other, other ∈ group.memberIds ↔
    other ∈ memories.map ConsolidationCandidate.id ∧ Connected memories pairs id other
  counted : group.memberCount = group.memberIds.length
  large : 2 ≤ group.memberCount
  /-- The representative is the largest member. -/
  represented : ∃ candidate ∈ memories, candidate.id = group.representativeId ∧
    candidate.id ∈ group.memberIds ∧ ∀ member ∈ memories, member.id ∈ group.memberIds →
      representativeKey member.memory ≤ representativeKey candidate.memory
  /-- There are pairs inside the component, and the similarity is their mean. -/
  paired : pairsInside pairs group.memberIds ≠ []
  averaged : group.similarity = meanSimilarity (pairsInside pairs group.memberIds)

end Graph

/-! ## Indices -/

section Indices

variable {memories : List ConsolidationCandidate} {pairs : List NeighborPair}

theorem idAt_mem (i : Fin memories.length) :
    idAt memories i ∈ memories.map ConsolidationCandidate.id :=
  List.mem_map.mpr ⟨memories.get i, List.get_mem memories i, rfl⟩

theorem exists_idAt {id : MemoryId} (known : id ∈ memories.map ConsolidationCandidate.id) :
    ∃ i, idAt memories i = id := by
  obtain ⟨candidate, member, rfl⟩ := List.mem_map.mp known
  obtain ⟨i, rfl⟩ := List.get_of_mem member
  exact ⟨i, rfl⟩

theorem map_idAt_finRange :
    (List.finRange memories.length).map (idAt memories) =
      memories.map ConsolidationCandidate.id := by
  have listed : (List.finRange memories.length).map memories.get = memories :=
    List.map_get_finRange memories
  calc (List.finRange memories.length).map (idAt memories)
      = ((List.finRange memories.length).map memories.get).map ConsolidationCandidate.id := by
        rw [List.map_map]
        rfl
    _ = memories.map ConsolidationCandidate.id := by rw [listed]

variable (distinct : (memories.map ConsolidationCandidate.id).Nodup)

include distinct

theorem idAt_injective : Function.Injective (idAt memories) := by
  intro i j same
  rw [← map_idAt_finRange] at distinct
  exact List.inj_on_of_nodup_map distinct (List.mem_finRange i) (List.mem_finRange j) same

theorem idToIdx_eq_some_iff {id : MemoryId} {i : Fin memories.length} :
    idToIdx memories id = some i ↔ idAt memories i = id := by
  have keys : (((List.finRange memories.length).map fun i => (idAt memories i, i)).map
      Prod.fst).Nodup := by
    rw [List.map_map]
    change ((List.finRange memories.length).map (idAt memories)).Nodup
    rw [map_idAt_finRange]
    exact distinct
  rw [idToIdx, collect_eq_some_iff keys, List.mem_map]
  constructor
  · rintro ⟨j, -, same⟩
    cases same
    rfl
  · rintro rfl
    exact ⟨i, List.mem_finRange i, rfl⟩

theorem ends_eq_some_iff {pair : NeighborPair} {i j : Fin memories.length} :
    pair.ends memories = some (i, j) ↔
      idAt memories i = pair.idA ∧ idAt memories j = pair.idB ∧ i ≠ j := by
  rw [NeighborPair.ends, ← idToIdx_eq_some_iff distinct, ← idToIdx_eq_some_iff distinct]
  cases idToIdx memories pair.idA with
  | none => simp
  | some first =>
      cases idToIdx memories pair.idB with
      | none => simp
      | some second =>
          by_cases same : first = second
          · subst same
            simp only [if_true, Option.some.injEq]
            constructor
            · intro absurdity
              cases absurdity
            · rintro ⟨rfl, rfl, differ⟩
              exact absurd rfl differ
          · simp only [if_neg same, Option.some.injEq, Prod.mk.injEq]
            constructor
            · rintro ⟨rfl, rfl⟩
              exact ⟨rfl, rfl, same⟩
            · rintro ⟨rfl, rfl, -⟩
              exact ⟨rfl, rfl⟩

/-! ## Components -/

theorem mem_edges_iff {i j : Fin memories.length} :
    (i, j) ∈ pairs.filterMap (NeighborPair.ends memories) ↔
      Linked memories pairs (idAt memories i) (idAt memories j) ∧ i ≠ j := by
  rw [List.mem_filterMap]
  constructor
  · rintro ⟨pair, member, joined⟩
    obtain ⟨first, second, differ⟩ := (ends_eq_some_iff distinct).mp joined
    exact ⟨⟨idAt_mem i, idAt_mem j, pair, member, first.symm, second.symm⟩, differ⟩
  · rintro ⟨⟨-, -, pair, member, first, second⟩, differ⟩
    exact ⟨pair, member, (ends_eq_some_iff distinct).mpr ⟨first.symm, second.symm, differ⟩⟩

/-- Different connected memories are candidates, connected by edges. -/
theorem exists_components_of_connected {first second : MemoryId}
    (connected : Connected memories pairs first second) :
    first = second ∨ ∃ i j, idAt memories i = first ∧ idAt memories j = second ∧
      Forest.components (pairs.filterMap (NeighborPair.ends memories)) i j := by
  induction connected with
  | rel first second linked =>
      right
      obtain ⟨i, rfl⟩ := exists_idAt linked.1
      obtain ⟨j, rfl⟩ := exists_idAt linked.2.1
      by_cases same : i = j
      · subst same
        exact ⟨i, i, rfl, rfl, .refl i⟩
      · exact ⟨i, j, rfl, rfl, .rel i j ((mem_edges_iff distinct).mpr ⟨linked, same⟩)⟩
  | refl first => exact Or.inl rfl
  | symm first second _ inductionHypothesis =>
      rcases inductionHypothesis with rfl | ⟨i, j, rfl, rfl, joined⟩
      · exact Or.inl rfl
      · exact Or.inr ⟨j, i, rfl, rfl, .symm i j joined⟩
  | trans first second third _ _ early late =>
      rcases early with rfl | ⟨i, j, rfl, rfl, joined⟩
      · exact late
      · rcases late with rfl | ⟨k, l, same, rfl, further⟩
        · exact Or.inr ⟨i, j, rfl, rfl, joined⟩
        · cases idAt_injective distinct same
          exact Or.inr ⟨i, l, rfl, rfl, .trans i _ l joined further⟩

/-- The edges of the indices have the components of the pairs. -/
theorem components_iff_connected {i j : Fin memories.length} :
    Forest.components (pairs.filterMap (NeighborPair.ends memories)) i j ↔
      Connected memories pairs (idAt memories i) (idAt memories j) := by
  constructor
  · intro joined
    induction joined with
    | rel i j edge => exact .rel _ _ ((mem_edges_iff distinct).mp edge).1
    | refl i => exact .refl _
    | symm i j _ inductionHypothesis => exact .symm _ _ inductionHypothesis
    | trans i j k _ _ first second => exact .trans _ _ _ first second
  · intro connected
    rcases exists_components_of_connected distinct connected with
      same | ⟨k, l, first, second, joined⟩
    · cases idAt_injective distinct same
      exact .refl _
    · cases idAt_injective distinct first
      cases idAt_injective distinct second
      exact joined

end Indices

/-! ## Reading and summing -/

section Reading

variable {memories : List ConsolidationCandidate}

theorem foldl_readPair (pairs : List NeighborPair)
    (state : Forest (Fin memories.length) ×
      List (Fin memories.length × Fin memories.length × ℚ)) :
    pairs.foldl (readPair memories) state =
      (state.1.unionAll (pairs.filterMap (NeighborPair.ends memories)),
        state.2 ++ pairSimilarities memories pairs) := by
  induction pairs generalizing state with
  | nil => simp [Forest.unionAll, pairSimilarities]
  | cons pair pairs inductionHypothesis =>
      rw [List.foldl_cons, inductionHypothesis, readPair]
      cases ends : pair.ends memories with
      | none => simp [ends, pairSimilarities]
      | some joined => simp [ends, Forest.unionAll, pairSimilarities]

/-- Each root gets the sum and the number of its similarities. -/
theorem foldl_addSimilarity {ι : Type} [DecidableEq ι] (rows : List (ι × ℚ))
    (sums : ι → ℚ × Nat) (root : ι) :
    rows.foldl addSimilarity sums root =
      ((sums root).1 + (Groups.rowsOf root rows).sum,
        (sums root).2 + (Groups.rowsOf root rows).length) := by
  induction rows generalizing sums with
  | nil => simp [Groups.rowsOf]
  | cons row rows inductionHypothesis =>
      rw [List.foldl_cons, inductionHypothesis]
      by_cases same : row.1 = root
      · subst same
        simp [addSimilarity, Groups.rowsOf, add_assoc, Nat.add_comm 1]
      · simp [addSimilarity, Groups.rowsOf, same, Function.update_of_ne (Ne.symm same)]

/-- An average is a sum by a count; a division by zero is zero. -/
theorem averageSimilarity_eq (sum : ℚ × Nat) : averageSimilarity sum = sum.1 / sum.2 := by
  rw [averageSimilarity]
  split
  · rfl
  · next none =>
      have zero : sum.2 = 0 := Nat.eq_zero_of_not_pos none
      rw [zero, Nat.cast_zero, div_zero]

end Reading

/-! ## One group for each component -/

section Groups

variable {memories : List ConsolidationCandidate} {pairs : List NeighborPair}

/-- The indices of one tree. -/
def membersAt (forest : Forest (Fin memories.length)) (root : Fin memories.length) :
    List (Fin memories.length) :=
  (List.finRange memories.length).filter fun i => decide (forest.root i = root)

@[simp]
theorem mem_membersAt {forest : Forest (Fin memories.length)} {root i : Fin memories.length} :
    i ∈ membersAt forest root ↔ forest.root i = root := by
  simp [membersAt]

theorem nodup_membersAt (forest : Forest (Fin memories.length)) (root : Fin memories.length) :
    (membersAt forest root).Nodup :=
  (List.nodup_finRange _).filter _

/-- The entry of a root holds its tree. -/
theorem mem_groupMembers_iff {forest : Forest (Fin memories.length)}
    {group : Fin memories.length × List (Fin memories.length)} :
    group ∈ Groups.entries
        ((forest.findEach (List.finRange memories.length)).1.zip
          (List.finRange memories.length)) ↔
      (∃ i, forest.root i = group.1) ∧ group.2 = membersAt forest group.1 := by
  have rows : (forest.findEach (List.finRange memories.length)).1.zip
      (List.finRange memories.length) =
        (List.finRange memories.length).map fun i => (forest.root i, i) := by
    have zipped : ((List.finRange memories.length).map forest.root).zip
        ((List.finRange memories.length).map id) =
          (List.finRange memories.length).map fun i => (forest.root i, i) := List.zip_map'
    rw [List.map_id] at zipped
    rw [(Forest.findEach_eq forest _).1, zipped]
  have tree : Groups.rowsOf group.1
      ((List.finRange memories.length).map fun i => (forest.root i, i)) =
        membersAt forest group.1 := by
    rw [Groups.rowsOf, List.filterMap_map, membersAt, ← List.filterMap_eq_filter]
    refine List.filterMap_congr fun i _ => ?_
    by_cases under : forest.root i = group.1
    · simp [under, Option.guard]
    · simp [under, Option.guard]
  have keys : group.1 ∈ ((List.finRange memories.length).map fun i => (forest.root i, i)).map
      Prod.fst ↔ ∃ i, forest.root i = group.1 := by
    simp
  obtain ⟨root, members⟩ := group
  rw [rows, Groups.mem_entries_iff, tree, keys]

/-- Each root gets the mean of its similarities. -/
theorem average_groupSimilarities {n : Nat} (forest : Forest (Fin n))
    (similarities : List (Fin n × Fin n × ℚ)) (root : Fin n) :
    averageSimilarity (groupSimilarities forest similarities root) =
      (Groups.rowsOf root (similarities.map fun pair => (forest.root pair.1, pair.2.2))).sum /
        (Groups.rowsOf root
          (similarities.map fun pair => (forest.root pair.1, pair.2.2))).length := by
  have rows : (forest.findEach (similarities.map Prod.fst)).1.zip
      (similarities.map fun pair => pair.2.2) =
        similarities.map fun pair => (forest.root pair.1, pair.2.2) := by
    rw [(Forest.findEach_eq _ _).1, List.map_map, List.zip_map']
    rfl
  rw [averageSimilarity_eq, groupSimilarities, rows, foldl_addSimilarity, zero_add, Nat.zero_add]

/-- Two groups that share a member are one. -/
theorem DuplicateGroup.Describes.eq_of_shared {first second : DuplicateGroup}
    (describes : first.Describes memories pairs) (other : second.Describes memories pairs)
    {id : MemoryId} (inFirst : id ∈ first.memberIds) (inSecond : id ∈ second.memberIds) :
    first = second := by
  have members : first.memberIds = second.memberIds := by
    refine describes.sorted.eq_of_mem_iff other.sorted fun member => ?_
    rw [describes.component id inFirst, other.component id inSecond]
  obtain ⟨best, bestMem, bestId, bestInside, largest⟩ := describes.represented
  obtain ⟨otherBest, otherMem, otherId, otherInside, otherLargest⟩ := other.represented
  have keys : representativeKey best.memory = representativeKey otherBest.memory := by
    apply le_antisymm
    · exact otherLargest best bestMem (members ▸ bestInside)
    · exact largest otherBest otherMem (members ▸ otherInside)
  have representatives : first.representativeId = second.representativeId := by
    rw [← bestId, ← otherId]
    exact congrArg (fun key => (ofLex (ofLex key).2).2) keys
  have counts : first.memberCount = second.memberCount := by
    rw [describes.counted, other.counted, members]
  have averages : first.similarity = second.similarity := by
    rw [describes.averaged, other.averaged, members]
  cases first
  cases second
  cases members
  cases representatives
  cases counts
  cases averages
  rfl

theorem DuplicateGroup.Describes.representative_mem {group : DuplicateGroup}
    (describes : group.Describes memories pairs) :
    group.representativeId ∈ group.memberIds := by
  obtain ⟨best, -, bestId, bestInside, -⟩ := describes.represented
  rw [← bestId]
  exact bestInside

/-- A way between different memories uses a pair of different memories. -/
theorem exists_linked_of_connected {first second : MemoryId}
    (connected : Connected memories pairs first second) :
    first = second ∨ ∃ third fourth, Linked memories pairs third fourth ∧ third ≠ fourth ∧
      Connected memories pairs first third := by
  induction connected with
  | rel first second linked =>
      by_cases same : first = second
      · exact Or.inl same
      · exact Or.inr ⟨first, second, linked, same, .refl first⟩
  | refl first => exact Or.inl rfl
  | symm first second joined inductionHypothesis =>
      rcases inductionHypothesis with same | ⟨third, fourth, linked, differ, reached⟩
      · exact Or.inl same.symm
      · exact Or.inr ⟨third, fourth, linked, differ,
          .trans _ _ _ (.symm _ _ joined) reached⟩
  | trans first second third joined _ early late =>
      rcases early with rfl | found
      · exact late
      · exact Or.inr found

variable (distinct : (memories.map ConsolidationCandidate.id).Nodup)
  {forest : Forest (Fin memories.length)}
  (trees : ∀ i j, forest.root i = forest.root j ↔
    Connected memories pairs (idAt memories i) (idAt memories j))

include distinct trees

/-- The pairs whose smaller index lies in a tree are the pairs inside it. -/
theorem rowsOf_similarities (root : Fin memories.length) :
    Groups.rowsOf root
        ((pairSimilarities memories pairs).map fun pair => (forest.root pair.1, pair.2.2)) =
      (pairsInside pairs ((membersAt forest root).map (idAt memories))).map
        NeighborPair.similarity := by
  have inside (i : Fin memories.length) :
      idAt memories i ∈ (membersAt forest root).map (idAt memories) ↔ forest.root i = root := by
    rw [List.mem_map_of_injective (idAt_injective distinct), mem_membersAt]
  rw [Groups.rowsOf, pairSimilarities, List.map_filterMap, List.filterMap_filterMap, pairsInside,
    ← List.filterMap_eq_filter, List.map_filterMap]
  refine List.filterMap_congr fun pair pairMem => ?_
  cases ends : pair.ends memories with
  | none =>
      have outside : ¬pair.Inside ((membersAt forest root).map (idAt memories)) := by
        rintro ⟨firstMem, secondMem, differ⟩
        obtain ⟨i, -, first⟩ := List.mem_map.mp firstMem
        obtain ⟨j, -, second⟩ := List.mem_map.mp secondMem
        have joined : pair.ends memories = some (i, j) := by
          refine (ends_eq_some_iff distinct).mpr ⟨first, second, ?_⟩
          rintro rfl
          exact differ (first.symm.trans second)
        rw [ends] at joined
        cases joined
      simp [outside, Option.guard]
  | some joined =>
      obtain ⟨i, j⟩ := joined
      obtain ⟨first, second, differ⟩ := (ends_eq_some_iff distinct).mp ends
      have sameRoot : forest.root i = forest.root j := by
        refine (trees i j).mpr (.rel _ _ ⟨idAt_mem i, idAt_mem j, pair, pairMem, ?_, ?_⟩)
        · exact first.symm
        · exact second.symm
      have lower : forest.root (pair.edge memories i j).1 = forest.root i := by
        rw [NeighborPair.edge]
        split
        · rfl
        · exact sameRoot.symm
      have value : (pair.edge memories i j).2.2 = pair.similarity := by
        rw [NeighborPair.edge]
        split
        · rfl
        · rfl
      have member : pair.Inside ((membersAt forest root).map (idAt memories)) ↔
          forest.root i = root := by
        rw [NeighborPair.Inside, ← first, ← second, inside, inside, ← sameRoot]
        constructor
        · rintro ⟨under, -⟩
          exact under
        · intro under
          exact ⟨under, under, (idAt_injective distinct).ne differ⟩
      by_cases under : forest.root i = root
      · simp [Option.guard, lower, value, member, under]
      · simp [Option.guard, lower, member, under]

omit trees in
theorem idAt_mem_sortedIds {root i : Fin memories.length} :
    idAt memories i ∈ sortedIds memories (membersAt forest root) ↔ forest.root i = root := by
  rw [sortedIds, mem_orderBy, List.mem_map_of_injective (idAt_injective distinct), mem_membersAt]

omit trees in
theorem pairwise_sortedIds (forest : Forest (Fin memories.length)) (root : Fin memories.length) :
    (sortedIds memories (membersAt forest root)).Pairwise (· < ·) := by
  have each : ((membersAt forest root).map (idAt memories)).Nodup :=
    (nodup_membersAt forest root).map (idAt_injective distinct)
  have sorted := List.pairwise_insertionSort
    (fun first second : MemoryId => decide (first ≤ second) = true)
    ((membersAt forest root).map (idAt memories))
  have nodup := (perm_orderBy (fun first second => decide (first ≤ second))
    ((membersAt forest root).map (idAt memories))).nodup_iff.mpr each
  refine (sorted.and nodup).imp fun ordered => ?_
  exact lt_of_le_of_ne (of_decide_eq_true ordered.1) ordered.2

/-- The members of a tree are one component. -/
theorem component_sortedIds (root : Fin memories.length) :
    ∀ id ∈ sortedIds memories (membersAt forest root), ∀ other,
      other ∈ sortedIds memories (membersAt forest root) ↔
        other ∈ memories.map ConsolidationCandidate.id ∧ Connected memories pairs id other := by
  intro id idMem other
  obtain ⟨i, iMem, rfl⟩ := List.mem_map.mp (mem_orderBy.mp idMem)
  rw [mem_membersAt] at iMem
  constructor
  · intro otherMem
    obtain ⟨j, jMem, rfl⟩ := List.mem_map.mp (mem_orderBy.mp otherMem)
    rw [mem_membersAt] at jMem
    exact ⟨idAt_mem j, (trees i j).mp (iMem.trans jMem.symm)⟩
  · rintro ⟨known, connected⟩
    obtain ⟨j, rfl⟩ := exists_idAt known
    rw [idAt_mem_sortedIds distinct, ← (trees i j).mpr connected, iMem]

omit distinct trees in
/-- A component of two memories has a pair inside. -/
theorem pairsInside_ne_nil {memberIds : List MemoryId} (sorted : memberIds.Pairwise (· < ·))
    (component : ∀ id ∈ memberIds, ∀ other, other ∈ memberIds ↔
      other ∈ memories.map ConsolidationCandidate.id ∧ Connected memories pairs id other)
    (large : 2 ≤ memberIds.length) : pairsInside pairs memberIds ≠ [] := by
  match memberIds, large with
  | first :: second :: rest, _ =>
      have differ : first ≠ second :=
        ((List.pairwise_cons.mp sorted).1 second List.mem_cons_self).ne
      have firstMem : first ∈ first :: second :: rest := List.mem_cons_self
      have secondMem : second ∈ first :: second :: rest := by simp
      obtain ⟨-, connected⟩ := (component first firstMem second).mp secondMem
      rcases exists_linked_of_connected connected with same | ⟨third, fourth, linked, apart, way⟩
      · exact absurd same differ
      · obtain ⟨thirdKnown, fourthKnown, pair, pairMem, rfl, rfl⟩ := linked
        have further : Connected memories pairs first pair.idB :=
          .trans _ _ _ way (.rel _ _ ⟨thirdKnown, fourthKnown, pair, pairMem, rfl, rfl⟩)
        have inside : pair.Inside (first :: second :: rest) :=
          ⟨(component first firstMem _).mpr ⟨thirdKnown, way⟩,
            (component first firstMem _).mpr ⟨fourthKnown, further⟩, apart⟩
        exact List.ne_nil_of_mem (List.mem_filter.mpr ⟨pairMem, decide_eq_true inside⟩)

/-- The group that is built from a tree describes its component. -/
theorem describes_of_build {root : Fin memories.length}
    (large : 2 ≤ (membersAt forest root).length) {group : DuplicateGroup}
    (built : buildDuplicateGroup memories (membersAt forest root)
      (meanSimilarity (pairsInside pairs ((membersAt forest root).map (idAt memories)))) =
        some group) :
    group.Describes memories pairs ∧ group.memberIds = sortedIds memories (membersAt forest root) := by
  rw [buildDuplicateGroup, Option.map_eq_some_iff] at built
  obtain ⟨best, found, rfl⟩ := built
  obtain ⟨bestMem, largest⟩ := lastMaxBy_eq_some found
  have sorted := pairwise_sortedIds distinct forest root
  have component := component_sortedIds distinct trees root
  have counted : (sortedIds memories (membersAt forest root)).length =
      (membersAt forest root).length :=
    (perm_orderBy _ _).length_eq.trans (List.length_map _)
  have sameInside : pairsInside pairs (sortedIds memories (membersAt forest root)) =
      pairsInside pairs ((membersAt forest root).map (idAt memories)) := by
    refine List.filter_congr fun pair _ => decide_eq_decide.mpr ?_
    simp only [NeighborPair.Inside, sortedIds, mem_orderBy]
  refine ⟨⟨sorted, component, counted.symm, large, ?_, ?_, ?_⟩, rfl⟩
  · refine ⟨memories.get best, List.get_mem memories best, rfl, ?_, fun candidate known inside => ?_⟩
    · exact (idAt_mem_sortedIds distinct).mpr (mem_membersAt.mp bestMem)
    · obtain ⟨i, rfl⟩ := List.get_of_mem known
      exact largest i (mem_membersAt.mpr ((idAt_mem_sortedIds distinct).mp inside))
  · exact pairsInside_ne_nil sorted component (counted ▸ large)
  · change _ = meanSimilarity (pairsInside pairs (sortedIds memories (membersAt forest root)))
    rw [sameInside]

/-- A list of groups comes from the trees of two or more indices. -/
theorem mem_groupsOfForest {iteration : Iteration (Fin memories.length × List (Fin memories.length))}
    {group : DuplicateGroup} :
    group ∈ groupsOfForest memories forest (pairSimilarities memories pairs) iteration ↔
      ∃ root, (∃ i, forest.root i = root) ∧ 2 ≤ (membersAt forest root).length ∧
        buildDuplicateGroup memories (membersAt forest root)
          (meanSimilarity (pairsInside pairs ((membersAt forest root).map (idAt memories)))) =
            some group := by
  have average (root : Fin memories.length) :
      averageSimilarity (groupSimilarities (forest.findEach (List.finRange memories.length)).2
        (pairSimilarities memories pairs) root) =
          meanSimilarity (pairsInside pairs ((membersAt forest root).map (idAt memories))) := by
    rw [average_groupSimilarities, (Forest.findEach_eq forest _).2,
      rowsOf_similarities distinct trees, List.length_map, meanSimilarity]
  simp only [groupsOfForest, List.mem_filterMap, List.mem_filter, decide_eq_true_iff,
    (iteration.perm _).mem_iff, mem_groupMembers_iff]
  constructor
  · rintro ⟨⟨root, members⟩, ⟨⟨used, tree⟩, large⟩, built⟩
    dsimp only at used tree large built
    rw [average, tree] at built
    rw [tree] at large
    exact ⟨root, used, large, built⟩
  · rintro ⟨root, used, large, built⟩
    refine ⟨(root, membersAt forest root), ⟨⟨used, rfl⟩, large⟩, ?_⟩
    dsimp only
    rw [average, built]

/-- A tree of two or more indices gives a group. -/
theorem exists_group_of_tree
    (iteration : Iteration (Fin memories.length × List (Fin memories.length)))
    {i : Fin memories.length} (large : 2 ≤ (membersAt forest (forest.root i)).length) :
    ∃ group ∈ groupsOfForest memories forest (pairSimilarities memories pairs) iteration,
      group.Describes memories pairs ∧
        group.memberIds = sortedIds memories (membersAt forest (forest.root i)) := by
  obtain ⟨best, found⟩ := exists_lastMaxBy (fun i => representativeKey (memories.get i).memory)
    (List.ne_nil_of_mem (mem_membersAt.mpr (rfl : forest.root i = forest.root i)))
  have built := congrArg (Option.map fun representative =>
    ({ representativeId := idAt memories representative
       memberIds := sortedIds memories (membersAt forest (forest.root i))
       similarity := meanSimilarity
        (pairsInside pairs ((membersAt forest (forest.root i)).map (idAt memories)))
       memberCount := (membersAt forest (forest.root i)).length } : DuplicateGroup)) found
  exact ⟨_, (mem_groupsOfForest distinct trees).mpr ⟨_, ⟨i, rfl⟩, large, built⟩,
    describes_of_build distinct trees large built⟩

/-- The groups of a forest are the groups that describe a component. -/
theorem mem_groupsOfForest_iff_describes
    {iteration : Iteration (Fin memories.length × List (Fin memories.length))}
    {group : DuplicateGroup} :
    group ∈ groupsOfForest memories forest (pairSimilarities memories pairs) iteration ↔
      group.Describes memories pairs := by
  constructor
  · intro groupMem
    obtain ⟨root, -, large, built⟩ := (mem_groupsOfForest distinct trees).mp groupMem
    exact (describes_of_build distinct trees large built).1
  · intro describes
    have represented := describes.representative_mem
    obtain ⟨known, -⟩ := (describes.component _ represented _).mp represented
    obtain ⟨i, named⟩ := exists_idAt known
    -- the tree of the representative holds the members of the group
    have covered : group.memberIds ⊆ sortedIds memories (membersAt forest (forest.root i)) := by
      intro id idMem
      obtain ⟨idKnown, connected⟩ := (describes.component _ represented id).mp idMem
      obtain ⟨j, rfl⟩ := exists_idAt idKnown
      rw [← named] at connected
      rw [idAt_mem_sortedIds distinct, (trees i j).mpr connected]
    have large : 2 ≤ (membersAt forest (forest.root i)).length := by
      have each : group.memberIds.Nodup := describes.sorted.imp fun below => ne_of_lt below
      have counted := (each.subperm covered).length_le
      rw [sortedIds, (perm_orderBy _ _).length_eq, List.length_map, ← describes.counted] at counted
      exact describes.large.trans counted
    obtain ⟨built, builtMem, alike, members⟩ :=
      exists_group_of_tree distinct trees iteration large
    have shared : group.representativeId ∈ built.memberIds := by
      rw [members]
      exact covered represented
    rw [describes.eq_of_shared alike represented shared]
    exact builtMem

omit trees in
/-- No group is listed twice. -/
theorem nodup_groupsOfForest
    (iteration : Iteration (Fin memories.length × List (Fin memories.length))) :
    (groupsOfForest memories forest (pairSimilarities memories pairs) iteration).Nodup := by
  simp only [groupsOfForest]
  apply List.pairwise_filterMap.mpr
  have listed := ((iteration.perm (Groups.entries
    ((forest.findEach (List.finRange memories.length)).1.zip
      (List.finRange memories.length)))).nodup_iff.mpr (Groups.nodup_entries _)).filter
        fun group => decide (2 ≤ group.2.length)
  refine List.Pairwise.imp_of_mem (fun {first second} firstMem secondMem differ => ?_) listed
  intro group built other otherBuilt same
  rw [List.mem_filter, (iteration.perm _).mem_iff, mem_groupMembers_iff] at firstMem secondMem
  rw [firstMem.1.2, buildDuplicateGroup, Option.map_eq_some_iff] at built
  rw [secondMem.1.2, buildDuplicateGroup, Option.map_eq_some_iff] at otherBuilt
  obtain ⟨best, found, rfl⟩ := built
  obtain ⟨otherBest, otherFound, rfl⟩ := otherBuilt
  have representatives := idAt_injective distinct (congrArg DuplicateGroup.representativeId same)
  have firstRoot := mem_membersAt.mp (lastMaxBy_eq_some found).1
  have secondRoot := mem_membersAt.mp (lastMaxBy_eq_some otherFound).1
  have roots : first.1 = second.1 := by
    rw [← firstRoot, ← secondRoot, representatives]
  exact differ (Prod.ext roots (by rw [firstMem.1.2, secondMem.1.2, roots]))

omit distinct trees in
/-- What a group describes does not depend on the order of the pairs. -/
theorem DuplicateGroup.Describes.of_perm {others : List NeighborPair} (same : pairs.Perm others)
    {group : DuplicateGroup} (describes : group.Describes memories pairs) :
    group.Describes memories others := by
  have linked (first second : MemoryId) :
      Linked memories pairs first second ↔ Linked memories others first second := by
    simp only [Linked, same.mem_iff]
  have connected (first second : MemoryId) :
      Connected memories pairs first second ↔ Connected memories others first second := by
    rw [Connected, Connected, funext₂ fun first second => propext (linked first second)]
  have inside : (pairsInside pairs group.memberIds).Perm (pairsInside others group.memberIds) :=
    same.filter _
  refine ⟨describes.sorted, fun id idMem other => ?_, describes.counted, describes.large,
    describes.represented, fun none => ?_, ?_⟩
  · rw [describes.component id idMem, connected]
  · rw [none] at inside
    exact describes.paired inside.eq_nil
  · rw [describes.averaged, meanSimilarity, meanSimilarity, inside.length_eq,
      (inside.map NeighborPair.similarity).sum_eq]

omit distinct trees in
theorem DuplicateGroup.Describes.groupKey_injective {first second : DuplicateGroup}
    (describes : first.Describes memories pairs) (other : second.Describes memories pairs)
    (same : groupKey first = groupKey second) : first = second := by
  have representatives : first.representativeId = second.representativeId :=
    congrArg (fun key => (ofLex (ofLex key).2).2) same
  refine describes.eq_of_shared other describes.representative_mem ?_
  rw [representatives]
  exact other.representative_mem

/-- The sorted groups do not depend on the order of the pairs, on the hash map,
or on the ranks and the shape of the forest. -/
theorem rankBy_groupsOfForest_eq {others : List NeighborPair} (same : others.Perm pairs)
    {other : Forest (Fin memories.length)}
    (otherTrees : ∀ i j, other.root i = other.root j ↔
      Connected memories others (idAt memories i) (idAt memories j))
    (iteration otherIteration : Iteration (Fin memories.length × List (Fin memories.length))) :
    rankBy groupKey (groupsOfForest memories other (pairSimilarities memories others)
        otherIteration) =
      rankBy groupKey (groupsOfForest memories forest (pairSimilarities memories pairs)
        iteration) := by
  apply rankBy_eq_of_perm
  · rw [List.perm_ext_iff_of_nodup (nodup_groupsOfForest distinct _)
      (nodup_groupsOfForest distinct _)]
    intro group
    rw [mem_groupsOfForest_iff_describes distinct otherTrees,
      mem_groupsOfForest_iff_describes distinct trees]
    exact ⟨fun describes => describes.of_perm same, fun describes => describes.of_perm same.symm⟩
  · intro first firstMem second secondMem sameKey
    rw [mem_groupsOfForest_iff_describes distinct otherTrees] at firstMem secondMem
    exact firstMem.groupKey_injective secondMem sameKey

end Groups

/-! ## The groups of the pairs -/

section Result

variable {memories : List ConsolidationCandidate} {pairs : List NeighborPair}

/-- Fewer than two candidates, or no pairs: no component has two memories. -/
theorem not_describes_of_few (few : memories.length < 2 ∨ pairs.isEmpty = true)
    (group : DuplicateGroup) : ¬group.Describes memories pairs := by
  intro describes
  rcases few with short | none
  · have each : group.memberIds.Nodup := describes.sorted.imp fun below => ne_of_lt below
    have known : group.memberIds ⊆ memories.map ConsolidationCandidate.id := by
      intro id idMem
      exact ((describes.component id idMem id).mp idMem).1
    have fits := (each.subperm known).length_le
    have large := describes.large
    rw [List.length_map, ← describes.counted] at fits
    omega
  · have paired := describes.paired
    rw [List.isEmpty_iff.mp none] at paired
    exact paired rfl

/-- The forest after all unions. -/
def forestOf (memories : List ConsolidationCandidate) (pairs : List NeighborPair) :
    Forest (Fin memories.length) :=
  Forest.discrete.unionAll (pairs.filterMap (NeighborPair.ends memories))

/-- Its trees are the components. -/
theorem root_forestOf_iff (distinct : (memories.map ConsolidationCandidate.id).Nodup)
    (i j : Fin memories.length) :
    (forestOf memories pairs).root i = (forestOf memories pairs).root j ↔
      Connected memories pairs (idAt memories i) (idAt memories j) :=
  (Forest.root_unionAll_eq_iff _ i j).trans (components_iff_connected distinct)

/-- Two connected memories share a tree of two or more indices. -/
theorem large_tree_of_connected (distinct : (memories.map ConsolidationCandidate.id).Nodup)
    {i j : Fin memories.length} (differ : i ≠ j)
    (connected : Connected memories pairs (idAt memories i) (idAt memories j)) :
    2 ≤ (membersAt (forestOf memories pairs) ((forestOf memories pairs).root i)).length := by
  have both : [i, j] ⊆ membersAt (forestOf memories pairs) ((forestOf memories pairs).root i) := by
    intro k kMem
    rcases List.mem_pair.mp kMem with rfl | rfl
    · exact mem_membersAt.mpr rfl
    · exact mem_membersAt.mpr ((root_forestOf_iff distinct i k).mpr connected).symm
  have each : [i, j].Nodup := by
    rw [List.nodup_cons, List.mem_singleton]
    exact ⟨differ, List.nodup_singleton j⟩
  exact (each.subperm both).length_le

/-- The groups are the components of two or more memories, one group each,
whatever the order of the pairs, the order of the hash map and the shape of the
forest; finding a root ends; and truncation keeps the first groups. -/
theorem duplicate_groups_are_components (memories : List ConsolidationCandidate)
    (pairs : List NeighborPair) (distinct : (memories.map ConsolidationCandidate.id).Nodup) :
    ∃ groups : List DuplicateGroup,
      (groups.Pairwise fun first second => groupKey second < groupKey first) ∧
      (∀ group ∈ groups, group.Describes memories pairs) ∧
      (∀ first ∈ memories.map ConsolidationCandidate.id, ∀ second, second ≠ first →
        Connected memories pairs first second →
          ∃ group ∈ groups, first ∈ group.memberIds ∧
            ∀ other ∈ groups, first ∈ other.memberIds → other = group) ∧
      (∀ others : List NeighborPair, others.Perm pairs → ∀ iteration maxGroups,
        findDuplicateGroupsFromPairs memories others iteration maxGroups =
          groups.take maxGroups) ∧
      (∀ (forest : Forest (Fin memories.length)) iteration,
        (∀ i j, forest.root i = forest.root j ↔
          Connected memories pairs (idAt memories i) (idAt memories j)) →
        rankBy groupKey
          (groupsOfForest memories forest (pairSimilarities memories pairs) iteration) = groups) ∧
      ∀ (forest : Forest (Fin memories.length)) i, ∃ passes,
        Forest.halvingPass^[passes] (forest.parent, i) =
          ((forest.find i).2.parent, (forest.find i).1) ∧
        (forest.find i).2.parent (forest.find i).1 = (forest.find i).1 := by
  have listed {iteration} {group : DuplicateGroup} := @mem_groupsOfForest_iff_describes memories
    pairs distinct _ (root_forestOf_iff distinct) iteration group
  refine ⟨rankBy groupKey (groupsOfForest memories (forestOf memories pairs)
    (pairSimilarities memories pairs) (Iteration.inserted _)), ?_, ?_, ?_, ?_, ?_, ?_⟩
  · have each : (rankBy groupKey (groupsOfForest memories (forestOf memories pairs)
        (pairSimilarities memories pairs) (Iteration.inserted _))).Nodup :=
      (perm_rankBy groupKey _).nodup_iff.mpr (nodup_groupsOfForest distinct _)
    refine List.Pairwise.imp_of_mem (fun {first second} firstMem secondMem ordered => ?_)
      ((pairwise_rankBy groupKey _).and each)
    refine lt_of_le_of_ne ordered.1 fun same => ordered.2 ?_
    exact (listed.mp (mem_rankBy.mp firstMem)).groupKey_injective
      (listed.mp (mem_rankBy.mp secondMem)) same.symm
  · intro group groupMem
    exact listed.mp (mem_rankBy.mp groupMem)
  · intro first _ second differ connected
    rcases exists_components_of_connected distinct connected with same | ⟨i, j, rfl, rfl, -⟩
    · exact absurd same.symm differ
    · have apart : i ≠ j := by
        rintro rfl
        exact differ rfl
      obtain ⟨group, groupMem, describes, members⟩ :=
        exists_group_of_tree distinct (root_forestOf_iff distinct) (Iteration.inserted _)
          (large_tree_of_connected distinct apart connected)
      have inside : idAt memories i ∈ group.memberIds := by
        rw [members, idAt_mem_sortedIds distinct]
      refine ⟨group, mem_rankBy.mpr groupMem, inside, fun other otherMem shared => ?_⟩
      exact (listed.mp (mem_rankBy.mp otherMem)).eq_of_shared describes shared inside
  · intro others same iteration maxGroups
    rw [findDuplicateGroupsFromPairs]
    split
    case isTrue few =>
      have none : rankBy groupKey (groupsOfForest memories (forestOf memories pairs)
          (pairSimilarities memories pairs) (Iteration.inserted _)) = [] := by
        refine List.eq_nil_iff_forall_not_mem.mpr fun group groupMem => ?_
        refine not_describes_of_few ?_ group (listed.mp (mem_rankBy.mp groupMem))
        rcases few with short | empty
        · exact Or.inl short
        · rw [List.isEmpty_iff.mp empty] at same
          rw [List.nil_perm.mp same]
          exact Or.inr rfl
      rw [none, List.take_nil]
    case isFalse =>
      dsimp only
      rw [foldl_readPair, List.nil_append]
      exact congrArg (List.take maxGroups) (rankBy_groupsOfForest_eq distinct
        (root_forestOf_iff distinct) same (root_forestOf_iff distinct) _ _)
  · intro forest iteration sameTrees
    exact rankBy_groupsOfForest_eq distinct (root_forestOf_iff distinct) (List.Perm.refl pairs)
      sameTrees _ _
  · intro forest i
    exact Forest.halvingPass_terminates forest i

end Result

/-- A candidate without a vector. -/
def noteCandidate (number : Nat) : ConsolidationCandidate :=
  ⟨⟨Memory.plain ⟨number⟩ "agent" "note" 0, none⟩, []⟩

/-- Of three candidates two are joined; they are in one group. -/
theorem duplicate_groups_are_components_joined :
    ∃ groups : List DuplicateGroup,
      (∀ iteration, findDuplicateGroupsFromPairs [noteCandidate 1, noteCandidate 2, noteCandidate 3]
        [⟨⟨2⟩, ⟨1⟩, 1⟩] iteration 5 = groups.take 5) ∧
      ∃ group ∈ groups, ⟨2⟩ ∈ group.memberIds := by
  obtain ⟨groups, -, -, covered, found, -⟩ := duplicate_groups_are_components
    [noteCandidate 1, noteCandidate 2, noteCandidate 3] [⟨⟨2⟩, ⟨1⟩, 1⟩] (by decide)
  have connected : Connected [noteCandidate 1, noteCandidate 2, noteCandidate 3]
      [⟨⟨2⟩, ⟨1⟩, 1⟩] ⟨2⟩ ⟨1⟩ :=
    .rel _ _ ⟨by decide, by decide, _, List.mem_singleton.mpr rfl, rfl, rfl⟩
  obtain ⟨group, groupMem, inside, -⟩ := covered ⟨2⟩ (by decide) ⟨1⟩ (by decide) connected
  exact ⟨groups, fun iteration => found _ (List.Perm.refl _) iteration 5, group, groupMem, inside⟩

end LocalHold
