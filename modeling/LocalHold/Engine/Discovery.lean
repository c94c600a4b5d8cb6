import LocalHold.Engine.DuplicateGroups
import LocalHold.Store.PagedScan
import Mathlib.Data.Finset.Card

/-!
# Discovery of neighbour pairs

A breadth-first search over the candidates: every candidate that no earlier
search reached starts one.  A search asks for the neighbours of each candidate
it reaches, keeps those of the same context profile within the threshold, and
emits a pair for each candidate that is new to the search.  Candidates that were
asked about once are not asked about again, and the whole discovery stops when
its work budget is used up.

The neighbour query of the store is a parameter.  The state of a discovery also
records which candidates it asked about.
-/

namespace LocalHold

open Ranking Relational

/-- Why a discovery stops early. -/
inductive DiscoveryStop where
  | capped
  | failed (error : StoreError)
deriving DecidableEq

/-- `find_embedding_neighbors`: source, candidates, vector, threshold, limit. -/
abbrev NeighborQuery : Type :=
  MemoryId → List MemoryId → Embedding → ℚ → Nat → Except StoreError (List (MemoryId × ℚ))

/-- The local variables of `bfs_discover_pairs`. -/
structure Discovery (n : Nat) where
  clustered : Finset (Fin n)
  queried : Finset (Fin n)
  pairs : List NeighborPair
  estimatedDistanceWork : Nat
  frontier : List (Fin n)
  clusterMembers : Finset (Fin n)
  stopped : Option DiscoveryStop
  /-- Ghost: the candidates whose neighbours were asked for, in order. -/
  asked : List (Fin n)

section Search

variable (memories : List ConsolidationCandidate)

/-- The candidates of each ordered list of contexts. -/
def candidateIdsByProfile : Groups (List ContextId) MemoryId :=
  Groups.empty.pushAll (memories.map fun memory => (memory.contextIds, memory.id))

/-- One pass of the loop of `collect_bfs_neighbors`. -/
def collectBfsNeighbor (similarityThreshold : ℚ) (current : Fin memories.length)
    (state : Discovery memories.length) (neighbor : MemoryId × ℚ) : Discovery memories.length :=
  match idToIdx memories neighbor.1 with
  | none => state
  | some index =>
      if (memories.get index).contextIds ≠ (memories.get current).contextIds then
        state
      else if index ∈ state.clusterMembers then
        state
      else if neighbor.2 < similarityThreshold then
        state
      else
        { state with
          pairs := state.pairs ++ [⟨idAt memories current, neighbor.1, neighbor.2⟩]
          clusterMembers := insert index state.clusterMembers
          frontier :=
            if index ∈ state.queried then state.frontier else state.frontier ++ [index] }

/-- What is asked about a candidate, and what the answer adds. -/
def askNeighbors (query : NeighborQuery) (similarityThreshold : ℚ) (neighborLimit : Nat)
    (state : Discovery memories.length) (current : Fin memories.length) :
    Discovery memories.length :=
  match (memories.get current).embedding with
  | none => state
  | some vector =>
      match candidateIdsByProfile memories (memories.get current).contextIds with
      | none =>
          { state with
            stopped := some (.failed (.conflict "consolidation candidate profile was not indexed")) }
      | some candidateIds =>
          let nextWork := saturatingAdd state.estimatedDistanceWork candidateIds.length
          if saturatingMul memories.length neighborLimit < nextWork then
            { state with stopped := some .capped }
          else
            let asking :=
              { state with
                estimatedDistanceWork := nextWork
                asked := state.asked ++ [current] }
            match query (idAt memories current) candidateIds vector similarityThreshold
                neighborLimit with
            | .error error => { asking with stopped := some (.failed error) }
            | .ok neighbors =>
                neighbors.foldl (collectBfsNeighbor memories similarityThreshold current) asking

/-- One pass of the inner loop, after the front of the frontier is popped. -/
def visit (query : NeighborQuery) (similarityThreshold : ℚ) (neighborLimit : Nat)
    (state : Discovery memories.length) (current : Fin memories.length)
    (rest : List (Fin memories.length)) : Discovery memories.length :=
  if current ∈ state.queried then
    { state with frontier := rest }
  else
    askNeighbors memories query similarityThreshold neighborLimit
      { state with frontier := rest, queried := insert current state.queried } current

/-- How many candidates a search can still pop. -/
def Discovery.remaining {n : Nat} (state : Discovery n) : Nat :=
  n - state.clusterMembers.card + state.frontier.length

variable {memories}

theorem remaining_collectBfsNeighbor (similarityThreshold : ℚ) (current : Fin memories.length)
    (state : Discovery memories.length) (neighbor : MemoryId × ℚ) :
    (collectBfsNeighbor memories similarityThreshold current state neighbor).remaining ≤
      state.remaining := by
  rw [collectBfsNeighbor]
  split
  case h_1 => exact Nat.le_refl _
  case h_2 index _ =>
    split
    · exact Nat.le_refl _
    · split
      · exact Nat.le_refl _
      · split
        · exact Nat.le_refl _
        · next fresh _ =>
            have room : (insert index state.clusterMembers).card ≤ memories.length := by
              have bounded := Finset.card_le_univ (insert index state.clusterMembers)
              rwa [Fintype.card_fin] at bounded
            have grown := Finset.card_insert_of_notMem fresh
            simp only [Discovery.remaining]
            split
            · omega
            · rw [List.length_append, List.length_singleton]
              omega

theorem remaining_foldl_collect (similarityThreshold : ℚ) (current : Fin memories.length)
    (neighbors : List (MemoryId × ℚ)) (state : Discovery memories.length) :
    (neighbors.foldl (collectBfsNeighbor memories similarityThreshold current) state).remaining ≤
      state.remaining := by
  induction neighbors generalizing state with
  | nil => exact Nat.le_refl _
  | cons neighbor neighbors inductionHypothesis =>
      exact (inductionHypothesis _).trans
        (remaining_collectBfsNeighbor similarityThreshold current state neighbor)

theorem remaining_visit (query : NeighborQuery) (similarityThreshold : ℚ) (neighborLimit : Nat)
    {state : Discovery memories.length} {current : Fin memories.length}
    {rest : List (Fin memories.length)} (popped : state.frontier = current :: rest) :
    (visit memories query similarityThreshold neighborLimit state current rest).remaining <
      state.remaining := by
  have shorter (state' : Discovery memories.length)
      (members : state'.clusterMembers = state.clusterMembers) (front : state'.frontier = rest) :
      state'.remaining < state.remaining := by
    rw [Discovery.remaining, Discovery.remaining, members, front, popped, List.length_cons]
    omega
  rw [visit]
  split
  · exact shorter _ rfl rfl
  · rw [askNeighbors]
    split
    · exact shorter _ rfl rfl
    · split
      · exact shorter _ rfl rfl
      · dsimp only
        split
        · exact shorter _ rfl rfl
        · split
          · exact shorter _ rfl rfl
          · next neighbors _ =>
              have asking (state' : Discovery memories.length)
                  (members : state'.clusterMembers = state.clusterMembers)
                  (front : state'.frontier = rest) :=
                (remaining_foldl_collect similarityThreshold current neighbors state').trans_lt
                  (shorter state' members front)
              exact asking _ rfl rfl

variable (memories)

/-- The inner loop: until the frontier is empty or the discovery stops. -/
def searchFrontier (query : NeighborQuery) (similarityThreshold : ℚ) (neighborLimit : Nat)
    (state : Discovery memories.length) : Discovery memories.length :=
  if state.stopped.isSome then
    state
  else
    match _ : state.frontier with
    | [] => state
    | current :: rest =>
        searchFrontier query similarityThreshold neighborLimit
          (visit memories query similarityThreshold neighborLimit state current rest)
termination_by state.remaining
decreasing_by
  exact remaining_visit query similarityThreshold neighborLimit ‹_›

/-- One pass of the outer loop. -/
def discoverFrom (query : NeighborQuery) (similarityThreshold : ℚ) (neighborLimit : Nat)
    (state : Discovery memories.length) (start : Fin memories.length) :
    Discovery memories.length :=
  if state.stopped.isSome then
    state
  else if start ∈ state.clustered ∨ (memories.get start).embedding.isNone then
    state
  else
    let searched := searchFrontier memories query similarityThreshold neighborLimit
      { state with frontier := [start], clusterMembers := {start} }
    { searched with clustered := searched.clustered ∪ searched.clusterMembers }

/-- The state after the outer loop. -/
def discovery (query : NeighborQuery) (similarityThreshold : ℚ) (neighborLimit : Nat) :
    Discovery memories.length :=
  (List.finRange memories.length).foldl
    (discoverFrom memories query similarityThreshold neighborLimit)
    ⟨∅, ∅, [], 0, [], ∅, none, []⟩

/-- The pairs of a discovery, and whether its work was capped. -/
def bfsDiscoverPairs (query : NeighborQuery) (similarityThreshold : ℚ) (neighborLimit : Nat) :
    Except StoreError (List NeighborPair × Bool) :=
  let found := discovery memories query similarityThreshold neighborLimit
  match found.stopped with
  | some (.failed error) => .error error
  | some .capped => .ok (found.pairs, true)
  | none => .ok (found.pairs, false)

end Search

/-! ## What a discovery keeps -/

section Invariants

variable {memories : List ConsolidationCandidate}

/-- The candidates of the profile of a candidate. -/
def profileIds (memories : List ConsolidationCandidate) (source : ConsolidationCandidate) :
    List MemoryId :=
  (memories.filter fun other => decide (other.contextIds = source.contextIds)).map
    ConsolidationCandidate.id

theorem candidateIdsByProfile_eq {memory : ConsolidationCandidate} (known : memory ∈ memories) :
    candidateIdsByProfile memories memory.contextIds = some (profileIds memories memory) := by
  have rows : Groups.rowsOf memory.contextIds
      (memories.map fun memory => (memory.contextIds, memory.id)) =
        profileIds memories memory := by
    rw [Groups.rowsOf, List.filterMap_map, profileIds, ← List.filterMap_eq_filter,
      List.map_filterMap]
    refine List.filterMap_congr fun other _ => ?_
    by_cases same : other.contextIds = memory.contextIds
    · simp [same, Option.guard]
    · simp [same, Option.guard]
  have listed : memory.id ∈ profileIds memories memory :=
    List.mem_map.mpr ⟨memory, List.mem_filter.mpr ⟨known, by simp⟩, rfl⟩
  rw [candidateIdsByProfile, Groups.pushAll_empty, rows, Groups.entry, if_neg]
  intro none
  rw [List.isEmpty_iff.mp none] at listed
  cases listed

variable {query : NeighborQuery} {similarityThreshold : ℚ} {neighborLimit : Nat}

/-- The answer about a candidate. -/
def Answered (memories : List ConsolidationCandidate) (query : NeighborQuery)
    (similarityThreshold : ℚ) (neighborLimit : Nat) (current : Fin memories.length)
    (neighbors : List (MemoryId × ℚ)) : Prop :=
  ∃ vector candidateIds, (memories.get current).embedding = some vector ∧
    candidateIdsByProfile memories (memories.get current).contextIds = some candidateIds ∧
      query (idAt memories current) candidateIds vector similarityThreshold neighborLimit =
        .ok neighbors

/-- A candidate that an answer admits as a neighbour. -/
structure AdmitsNeighbor (current other : Fin memories.length) (similarityThreshold : ℚ)
    (neighbors : List (MemoryId × ℚ)) (similarity : ℚ) : Prop where
  listed : (idAt memories other, similarity) ∈ neighbors
  alike : (memories.get other).contextIds = (memories.get current).contextIds
  close : similarityThreshold ≤ similarity

/-- A pair taken from an answer. -/
def NeighborPair.Found (memories : List ConsolidationCandidate) (query : NeighborQuery)
    (similarityThreshold : ℚ) (neighborLimit : Nat) (pair : NeighborPair) : Prop :=
  ∃ (current other : Fin memories.length) (neighbors : List (MemoryId × ℚ)),
    current ≠ other ∧ idAt memories current = pair.idA ∧ idAt memories other = pair.idB ∧
      Answered memories query similarityThreshold neighborLimit current neighbors ∧
        AdmitsNeighbor current other similarityThreshold neighbors pair.similarity

/-- What one pass over an answer changes. -/
theorem collectBfsNeighbor_cases (similarityThreshold : ℚ) (current : Fin memories.length)
    (state : Discovery memories.length) (neighbor : MemoryId × ℚ) :
    (collectBfsNeighbor memories similarityThreshold current state neighbor = state ∧
      ∀ other, idToIdx memories neighbor.1 = some other →
        (memories.get other).contextIds = (memories.get current).contextIds →
          similarityThreshold ≤ neighbor.2 → other ∈ state.clusterMembers) ∨
    ∃ other, idToIdx memories neighbor.1 = some other ∧
      (memories.get other).contextIds = (memories.get current).contextIds ∧
      similarityThreshold ≤ neighbor.2 ∧ other ∉ state.clusterMembers ∧
      collectBfsNeighbor memories similarityThreshold current state neighbor =
        { state with
          pairs := state.pairs ++ [⟨idAt memories current, neighbor.1, neighbor.2⟩]
          clusterMembers := insert other state.clusterMembers
          frontier :=
            if other ∈ state.queried then state.frontier else state.frontier ++ [other] } := by
  rw [collectBfsNeighbor]
  cases found : idToIdx memories neighbor.1 with
  | none =>
      left
      refine ⟨rfl, fun other known => ?_⟩
      cases known
  | some index =>
      dsimp only
      by_cases alike : (memories.get index).contextIds = (memories.get current).contextIds
      · rw [if_neg (not_not_intro alike)]
        by_cases member : index ∈ state.clusterMembers
        · rw [if_pos member]
          left
          refine ⟨rfl, fun other known _ _ => ?_⟩
          cases known
          exact member
        · rw [if_neg member]
          by_cases far : neighbor.2 < similarityThreshold
          · rw [if_pos far]
            left
            exact ⟨rfl, fun other _ _ close => absurd far (not_lt.mpr close)⟩
          · rw [if_neg far]
            exact Or.inr ⟨index, rfl, alike, not_lt.mp far, member, rfl⟩
      · rw [if_pos alike]
        left
        refine ⟨rfl, fun other known same => ?_⟩
        cases known
        exact absurd same alike

/-- More pairs connect what fewer connect. -/
theorem Connected.mono {pairs more : List NeighborPair} (included : pairs ⊆ more)
    {first second : MemoryId} (connected : Connected memories pairs first second) :
    Connected memories more first second := by
  refine Relation.EqvGen.mono ?_ _ _ connected
  intro first second linked
  obtain ⟨firstKnown, secondKnown, pair, pairMem, named⟩ := linked
  exact ⟨firstKnown, secondKnown, pair, included pairMem, named⟩

/-- What holds of a search from a root while it runs. -/
structure Searching (query : NeighborQuery) (similarityThreshold : ℚ) (neighborLimit : Nat)
    (root : Fin memories.length) (state : Discovery memories.length) : Prop where
  emitted : ∀ pair ∈ state.pairs, pair.Found memories query similarityThreshold neighborLimit
  connected : ∀ member ∈ state.clusterMembers,
    Connected memories state.pairs (idAt memories root) (idAt memories member)
  reached : ∀ member ∈ state.frontier, member ∈ state.clusterMembers
  pending : ∀ member ∈ state.clusterMembers, member ∈ state.queried ∨ member ∈ state.frontier

/-- What the loop over an answer leaves alone, and what only grows. -/
structure Extends (state later : Discovery memories.length) : Prop where
  clustered : later.clustered = state.clustered
  queried : later.queried = state.queried
  stopped : later.stopped = state.stopped
  asked : later.asked = state.asked
  pairs : state.pairs ⊆ later.pairs
  members : state.clusterMembers ⊆ later.clusterMembers

theorem Extends.refl (state : Discovery memories.length) : Extends state state :=
  ⟨rfl, rfl, rfl, rfl, List.Subset.refl _, Finset.Subset.refl _⟩

theorem Extends.trans {first second third : Discovery memories.length}
    (early : Extends first second) (late : Extends second third) : Extends first third :=
  ⟨late.clustered.trans early.clustered, late.queried.trans early.queried,
    late.stopped.trans early.stopped, late.asked.trans early.asked,
    List.Subset.trans early.pairs late.pairs,
    Finset.Subset.trans early.members late.members⟩

variable (distinct : (memories.map ConsolidationCandidate.id).Nodup)

include distinct

theorem searching_collectBfsNeighbor {root current : Fin memories.length}
    {state : Discovery memories.length} {neighbors : List (MemoryId × ℚ)}
    (answered : Answered memories query similarityThreshold neighborLimit current neighbors)
    (searching : Searching query similarityThreshold neighborLimit root state)
    (expanded : current ∈ state.clusterMembers) {neighbor : MemoryId × ℚ}
    (listed : neighbor ∈ neighbors) :
    let later := collectBfsNeighbor memories similarityThreshold current state neighbor
    Searching query similarityThreshold neighborLimit root later ∧ Extends state later ∧
      ∀ other, idToIdx memories neighbor.1 = some other →
        (memories.get other).contextIds = (memories.get current).contextIds →
          similarityThreshold ≤ neighbor.2 → other ∈ later.clusterMembers := by
  dsimp only
  rcases collectBfsNeighbor_cases similarityThreshold current state neighbor with
    ⟨same, old⟩ | ⟨other, found, alike, close, fresh, changed⟩
  · rw [same]
    exact ⟨searching, Extends.refl state, old⟩
  · have named := (idToIdx_eq_some_iff distinct).mp found
    have differ : current ≠ other := by
      rintro rfl
      exact fresh expanded
    have grown : state.pairs ⊆ state.pairs ++ [⟨idAt memories current, neighbor.1, neighbor.2⟩] :=
      List.subset_append_left _ _
    have joined : Connected memories
        (state.pairs ++ [⟨idAt memories current, neighbor.1, neighbor.2⟩])
          (idAt memories root) (idAt memories other) := by
      refine .trans _ _ _ ((searching.connected current expanded).mono grown) (.rel _ _ ?_)
      exact ⟨idAt_mem current, idAt_mem other, _,
        List.mem_append_right _ (List.mem_singleton.mpr rfl), rfl, named.symm⟩
    rw [changed]
    refine ⟨⟨fun pair pairMem => ?_, fun member memberMem => ?_, fun member memberMem => ?_,
      fun member memberMem => ?_⟩, ⟨rfl, rfl, rfl, rfl, grown, Finset.subset_insert _ _⟩,
      fun index known _ _ => ?_⟩
    · rcases List.mem_append.mp pairMem with old | new
      · exact searching.emitted pair old
      · cases List.mem_singleton.mp new
        exact ⟨current, other, neighbors, differ, rfl, named, answered,
          ⟨by rw [named]; exact listed, alike, close⟩⟩
    · rcases Finset.mem_insert.mp memberMem with rfl | old
      · exact joined
      · exact (searching.connected member old).mono grown
    · dsimp only at memberMem ⊢
      split at memberMem
      · exact Finset.mem_insert_of_mem (searching.reached member memberMem)
      · rcases List.mem_append.mp memberMem with old | new
        · exact Finset.mem_insert_of_mem (searching.reached member old)
        · rw [List.mem_singleton.mp new]
          exact Finset.mem_insert_self _ _
    · dsimp only at memberMem ⊢
      rcases Finset.mem_insert.mp memberMem with rfl | old
      · by_cases before : member ∈ state.queried
        · exact Or.inl before
        · rw [if_neg before]
          exact Or.inr (List.mem_append_right _ (List.mem_singleton.mpr rfl))
      · rcases searching.pending member old with queried | waiting
        · exact Or.inl queried
        · right
          split
          · exact waiting
          · exact List.mem_append_left _ waiting
    · rw [found] at known
      cases known
      exact Finset.mem_insert_self _ _

/-- A whole answer: its admitted candidates become members. -/
theorem searching_collect {root current : Fin memories.length}
    {neighbors : List (MemoryId × ℚ)}
    (answered : Answered memories query similarityThreshold neighborLimit current neighbors)
    {some : List (MemoryId × ℚ)} (included : some ⊆ neighbors)
    {state : Discovery memories.length}
    (searching : Searching query similarityThreshold neighborLimit root state)
    (expanded : current ∈ state.clusterMembers) :
    let later := some.foldl (collectBfsNeighbor memories similarityThreshold current) state
    Searching query similarityThreshold neighborLimit root later ∧ Extends state later ∧
      ∀ other similarity, AdmitsNeighbor current other similarityThreshold some similarity →
        other ∈ later.clusterMembers := by
  induction some generalizing state with
  | nil =>
      refine ⟨searching, Extends.refl state, fun other similarity admitted => ?_⟩
      cases admitted.listed
  | cons neighbor rest inductionHypothesis =>
      obtain ⟨neighborMem, restIncluded⟩ := List.cons_subset.mp included
      obtain ⟨first, extended, reached⟩ :=
        searching_collectBfsNeighbor distinct answered searching expanded neighborMem
      obtain ⟨last, further, others⟩ :=
        inductionHypothesis restIncluded first (extended.members expanded)
      refine ⟨last, extended.trans further, fun other similarity admitted => ?_⟩
      rcases List.mem_cons.mp admitted.listed with same | later
      · have known : idToIdx memories neighbor.1 = .some other :=
          (idToIdx_eq_some_iff distinct).mpr (congrArg Prod.fst same)
        have close : similarityThreshold ≤ neighbor.2 := by
          rw [← congrArg Prod.snd same]
          exact admitted.close
        exact further.members (reached other known admitted.alike close)
      · exact others other similarity ⟨later, admitted.alike, admitted.close⟩

/-- What always holds of a discovery. -/
structure Kept (memories : List ConsolidationCandidate) (query : NeighborQuery)
    (similarityThreshold : ℚ) (neighborLimit : Nat) (state : Discovery memories.length) :
    Prop where
  emitted : ∀ pair ∈ state.pairs, pair.Found memories query similarityThreshold neighborLimit
  askedOnce : state.asked.Nodup
  askedQueried : ∀ current ∈ state.asked, current ∈ state.queried
  /-- Only the query fails. -/
  failure : ∀ error, state.stopped = some (.failed error) →
    ∃ current candidateIds vector, query (idAt memories current) candidateIds vector
      similarityThreshold neighborLimit = .error error

/-- Every queried candidate is connected with the candidates its answer admits. -/
def Explored (query : NeighborQuery) (similarityThreshold : ℚ) (neighborLimit : Nat)
    (state : Discovery memories.length) : Prop :=
  ∀ current ∈ state.queried, ∀ neighbors,
    Answered memories query similarityThreshold neighborLimit current neighbors →
      ∀ other similarity, AdmitsNeighbor current other similarityThreshold neighbors similarity →
        Connected memories state.pairs (idAt memories current) (idAt memories other)

/-- What holds of a search from a root until the discovery stops. -/
structure Progress (query : NeighborQuery) (similarityThreshold : ℚ) (neighborLimit : Nat)
    (root : Fin memories.length) (before : Finset (Fin memories.length))
    (state : Discovery memories.length) : Prop where
  searching : Searching query similarityThreshold neighborLimit root state
  explored : Explored query similarityThreshold neighborLimit state
  settled : state.clustered ⊆ state.queried
  rooted : root ∈ state.clusterMembers
  same : state.clustered = before

omit distinct in
/-- A candidate that is popped again changes the frontier only. -/
theorem Searching.pop {root current : Fin memories.length} {state : Discovery memories.length}
    {rest : List (Fin memories.length)}
    (searching : Searching query similarityThreshold neighborLimit root state)
    (popped : state.frontier = current :: rest) :
    Searching query similarityThreshold neighborLimit root
      { state with frontier := rest, queried := insert current state.queried } := by
  refine ⟨searching.emitted, searching.connected, fun member memberMem => ?_,
    fun member memberMem => ?_⟩
  · apply searching.reached
    rw [popped]
    exact List.mem_cons_of_mem current memberMem
  · rcases searching.pending member memberMem with queried | waiting
    · exact Or.inl (Finset.mem_insert_of_mem queried)
    · rw [popped] at waiting
      rcases List.mem_cons.mp waiting with rfl | later
      · exact Or.inl (Finset.mem_insert_self _ _)
      · exact Or.inr later

omit distinct in
/-- A query has one answer. -/
theorem Answered.unique {current : Fin memories.length} {first second : List (MemoryId × ℚ)}
    (one : Answered memories query similarityThreshold neighborLimit current first)
    (two : Answered memories query similarityThreshold neighborLimit current second) :
    first = second := by
  obtain ⟨vector, candidateIds, embedded, profile, answer⟩ := one
  obtain ⟨otherVector, otherIds, otherEmbedded, otherProfile, otherAnswer⟩ := two
  cases embedded.symm.trans otherEmbedded
  cases profile.symm.trans otherProfile
  cases answer.symm.trans otherAnswer
  rfl

omit distinct in
/-- Two members of a cluster are connected through its root. -/
theorem Searching.connects {root first second : Fin memories.length}
    {state : Discovery memories.length}
    (searching : Searching query similarityThreshold neighborLimit root state)
    (firstMem : first ∈ state.clusterMembers) (secondMem : second ∈ state.clusterMembers) :
    Connected memories state.pairs (idAt memories first) (idAt memories second) :=
  .trans _ _ _ (.symm _ _ (searching.connected first firstMem))
    (searching.connected second secondMem)

omit distinct in
/-- A candidate that is asked for the first time. -/
theorem Kept.ask {current : Fin memories.length} {state : Discovery memories.length}
    (kept : Kept memories query similarityThreshold neighborLimit state)
    (fresh : current ∉ state.queried) :
    (state.asked ++ [current]).Nodup ∧
      ∀ other ∈ state.asked ++ [current], other ∈ insert current state.queried := by
  have unasked : current ∉ state.asked := fun asked => fresh (kept.askedQueried current asked)
  constructor
  · rw [List.nodup_append]
    refine ⟨kept.askedOnce, List.nodup_singleton _, fun first firstMem second secondMem same => ?_⟩
    rw [same, List.mem_singleton.mp secondMem] at firstMem
    exact unasked firstMem
  · intro other otherMem
    rcases List.mem_append.mp otherMem with old | new
    · exact Finset.mem_insert_of_mem (kept.askedQueried other old)
    · rw [List.mem_singleton.mp new]
      exact Finset.mem_insert_self _ _

omit distinct in
/-- One more candidate is explored once it is connected with what its answer
admits. -/
theorem Explored.insert {current : Fin memories.length}
    {state later : Discovery memories.length}
    (explored : Explored query similarityThreshold neighborLimit state)
    (queried : later.queried = insert current state.queried)
    (pairs : state.pairs ⊆ later.pairs)
    (here : ∀ neighbors, Answered memories query similarityThreshold neighborLimit current
        neighbors → ∀ other similarity,
      AdmitsNeighbor current other similarityThreshold neighbors similarity →
        Connected memories later.pairs (idAt memories current) (idAt memories other)) :
    Explored query similarityThreshold neighborLimit later := by
  intro other otherMem neighbors answered third similarity admitted
  rw [queried] at otherMem
  rcases Finset.mem_insert.mp otherMem with rfl | old
  · exact here neighbors answered third similarity admitted
  · exact (explored other old neighbors answered third similarity admitted).mono pairs

/-- The answer of the query is collected. -/
theorem progress_collect {root current : Fin memories.length}
    {before : Finset (Fin memories.length)} {state asking : Discovery memories.length}
    {neighbors : List (MemoryId × ℚ)}
    (progress : Progress query similarityThreshold neighborLimit root before state)
    (answered : Answered memories query similarityThreshold neighborLimit current neighbors)
    (asks : Searching query similarityThreshold neighborLimit root asking)
    (member : current ∈ asking.clusterMembers) (same : asking.pairs = state.pairs)
    (queried : asking.queried = insert current state.queried)
    (clustered : asking.clustered = state.clustered)
    (rooted : root ∈ asking.clusterMembers) :
    let later := neighbors.foldl (collectBfsNeighbor memories similarityThreshold current) asking
    Extends asking later ∧ Progress query similarityThreshold neighborLimit root before later := by
  obtain ⟨found, extended, reached⟩ :=
    searching_collect distinct answered (List.Subset.refl neighbors) asks member
  have pairs := extended.pairs
  rw [same] at pairs
  refine ⟨extended, found, ?_, ?_, extended.members rooted,
    (extended.clustered.trans clustered).trans progress.same⟩
  · refine progress.explored.insert (extended.queried.trans queried) pairs
      fun others otherAnswered other similarity admitted => ?_
    rw [← answered.unique otherAnswered] at admitted
    exact found.connects (extended.members member) (reached other similarity admitted)
  · rw [extended.clustered, extended.queried, clustered, queried]
    exact Finset.Subset.trans progress.settled (Finset.subset_insert _ _)

/-- One pass of the inner loop. -/
theorem progress_visit {root current : Fin memories.length}
    {before : Finset (Fin memories.length)} {state : Discovery memories.length}
    {rest : List (Fin memories.length)} (popped : state.frontier = current :: rest)
    (running : state.stopped = none)
    (kept : Kept memories query similarityThreshold neighborLimit state)
    (progress : Progress query similarityThreshold neighborLimit root before state) :
    let later := visit memories query similarityThreshold neighborLimit state current rest
    Kept memories query similarityThreshold neighborLimit later ∧
      (later.stopped = none →
        Progress query similarityThreshold neighborLimit root before later) := by
  have searching := progress.searching.pop popped
  have member : current ∈ state.clusterMembers := by
    apply progress.searching.reached
    rw [popped]
    exact List.mem_cons_self
  dsimp only
  rw [visit]
  split
  case isTrue queried =>
    rw [Finset.insert_eq_of_mem queried] at searching
    refine ⟨⟨kept.emitted, kept.askedOnce, kept.askedQueried, kept.failure⟩, fun _ => ?_⟩
    exact ⟨searching, progress.explored, progress.settled, progress.rooted, progress.same⟩
  case isFalse fresh =>
    have askedQueried : ∀ other ∈ state.asked, other ∈ insert current state.queried :=
      fun other otherMem => Finset.mem_insert_of_mem (kept.askedQueried other otherMem)
    obtain ⟨askedOnce, askedNow⟩ := kept.ask fresh
    rw [askNeighbors]
    split
    case h_1 unembedded =>
      refine ⟨⟨kept.emitted, kept.askedOnce, askedQueried, kept.failure⟩, fun _ => ?_⟩
      refine ⟨searching, progress.explored.insert rfl (List.Subset.refl _) ?_,
        Finset.Subset.trans progress.settled (Finset.subset_insert _ _), progress.rooted,
        progress.same⟩
      rintro neighbors ⟨vector, candidateIds, embedded, -⟩
      rw [unembedded] at embedded
      cases embedded
    case h_2 vector embedded =>
      have profile := candidateIdsByProfile_eq (List.get_mem memories current)
      rw [profile]
      dsimp only
      split
      · refine ⟨⟨kept.emitted, kept.askedOnce, askedQueried, fun error failed => ?_⟩,
          fun going => ?_⟩
        · cases failed
        · cases going
      · split
        case h_1 error answer =>
          refine ⟨⟨kept.emitted, askedOnce, askedNow, fun reported failed => ?_⟩, fun going => ?_⟩
          · cases failed
            exact ⟨current, _, vector, answer⟩
          · cases going
        case h_2 neighbors answer =>
          have asks : Searching query similarityThreshold neighborLimit root
              { state with
                frontier := rest
                queried := insert current state.queried
                estimatedDistanceWork := saturatingAdd state.estimatedDistanceWork
                  (profileIds memories (memories.get current)).length
                asked := state.asked ++ [current] } :=
            ⟨searching.emitted, searching.connected, searching.reached, searching.pending⟩
          obtain ⟨extended, further⟩ := progress_collect distinct progress
            ⟨vector, _, embedded, profile, answer⟩ asks member rfl rfl rfl progress.rooted
          refine ⟨⟨further.searching.emitted, ?_, ?_, fun error failed => ?_⟩, fun _ => further⟩
          · rw [extended.asked]
            exact askedOnce
          · rw [extended.asked, extended.queried]
            exact askedNow
          · rw [extended.stopped, running] at failed
            cases failed

/-- The inner loop ends with an empty frontier unless the discovery stops. -/
theorem progress_searchFrontier {root : Fin memories.length}
    {before : Finset (Fin memories.length)} {state : Discovery memories.length}
    (kept : Kept memories query similarityThreshold neighborLimit state)
    (progress : state.stopped = none →
      Progress query similarityThreshold neighborLimit root before state) :
    let later := searchFrontier memories query similarityThreshold neighborLimit state
    Kept memories query similarityThreshold neighborLimit later ∧
      (later.stopped = none →
        Progress query similarityThreshold neighborLimit root before later ∧
          later.frontier = []) := by
  induction state using searchFrontier.induct memories query similarityThreshold neighborLimit with
  | case1 state stopped =>
      rw [searchFrontier, if_pos stopped]
      refine ⟨kept, fun running => ?_⟩
      rw [running] at stopped
      cases stopped
  | case2 state running ended =>
      have same : searchFrontier memories query similarityThreshold neighborLimit state = state := by
        rw [searchFrontier, if_neg running]
        split
        · rfl
        · next popped => 
          rw [ended] at popped
          cases popped
      rw [same]
      exact ⟨kept, fun running => ⟨progress running, ended⟩⟩
  | case3 state running current rest popped inductionHypothesis =>
      have next : searchFrontier memories query similarityThreshold neighborLimit state =
          searchFrontier memories query similarityThreshold neighborLimit
            (visit memories query similarityThreshold neighborLimit state current rest) := by
        rw [searchFrontier.eq_1 _ _ _ _ state, if_neg running]
        split
        · next ended =>
          rw [ended] at popped
          cases popped
        · next others =>
          rw [others] at popped
          cases popped
          rfl
      have going : state.stopped = none := by
        cases stop : state.stopped with
        | none => rfl
        | some reason =>
            rw [stop] at running
            exact absurd rfl running
      obtain ⟨visitKept, visitProgress⟩ :=
        progress_visit distinct popped going kept (progress going)
      rw [next]
      exact inductionHypothesis visitKept visitProgress

/-- What holds between searches: nothing found is left open, and the embedded
candidates passed so far are in a cluster. -/
structure Between (query : NeighborQuery) (similarityThreshold : ℚ) (neighborLimit : Nat)
    (passed : List (Fin memories.length)) (state : Discovery memories.length) : Prop where
  explored : Explored query similarityThreshold neighborLimit state
  settled : state.clustered ⊆ state.queried
  covered : ∀ start ∈ passed, (memories.get start).embedding.isSome → start ∈ state.clustered

/-- One pass of the outer loop. -/
theorem between_discoverFrom {passed : List (Fin memories.length)}
    {state : Discovery memories.length} (start : Fin memories.length)
    (kept : Kept memories query similarityThreshold neighborLimit state)
    (between : state.stopped = none →
      Between query similarityThreshold neighborLimit passed state) :
    let later := discoverFrom memories query similarityThreshold neighborLimit state start
    Kept memories query similarityThreshold neighborLimit later ∧
      (later.stopped = none →
        Between query similarityThreshold neighborLimit (passed ++ [start]) later) := by
  dsimp only
  rw [discoverFrom]
  split
  case isTrue stopped =>
    refine ⟨kept, fun running => ?_⟩
    rw [running] at stopped
    cases stopped
  case isFalse running =>
    have going : state.stopped = none := by
      rw [Option.not_isSome_iff_eq_none] at running
      exact running
    obtain ⟨explored, settled, covered⟩ := between going
    split
    case isTrue passedBy =>
      refine ⟨kept, fun _ => ⟨explored, settled, fun other otherMem embedded => ?_⟩⟩
      rcases List.mem_append.mp otherMem with old | new
      · exact covered other old embedded
      · rw [List.mem_singleton.mp new] at embedded ⊢
        rcases passedBy with member | unembedded
        · exact member
        · rw [Option.isNone_iff_eq_none.mp unembedded] at embedded
          cases embedded
    case isFalse =>
      have startKept : Kept memories query similarityThreshold neighborLimit
          { state with frontier := [start], clusterMembers := {start} } :=
        ⟨kept.emitted, kept.askedOnce, kept.askedQueried, kept.failure⟩
      have searching : Searching query similarityThreshold neighborLimit start
          { state with frontier := [start], clusterMembers := {start} } := by
        refine ⟨kept.emitted, fun member memberMem => ?_, fun member memberMem => ?_,
          fun member memberMem => ?_⟩
        · rw [Finset.mem_singleton.mp memberMem]
          exact .refl _
        · exact Finset.mem_singleton.mpr (List.mem_singleton.mp memberMem)
        · exact Or.inr (List.mem_singleton.mpr (Finset.mem_singleton.mp memberMem))
      have startProgress : Progress query similarityThreshold neighborLimit start state.clustered
          { state with frontier := [start], clusterMembers := {start} } :=
        ⟨searching, explored, settled, Finset.mem_singleton_self start, rfl⟩
      obtain ⟨searchKept, searched⟩ :=
        progress_searchFrontier distinct startKept fun _ => startProgress
      refine ⟨⟨searchKept.emitted, searchKept.askedOnce, searchKept.askedQueried,
        searchKept.failure⟩, fun running => ?_⟩
      obtain ⟨progress, ended⟩ := searched running
      have allQueried : (searchFrontier memories query similarityThreshold neighborLimit
          { state with frontier := [start], clusterMembers := {start} }).clusterMembers ⊆
          (searchFrontier memories query similarityThreshold neighborLimit
            { state with frontier := [start], clusterMembers := {start} }).queried := by
        intro member memberMem
        rcases progress.searching.pending member memberMem with queried | waiting
        · exact queried
        · rw [ended] at waiting
          cases waiting
      refine ⟨progress.explored, Finset.union_subset progress.settled allQueried,
        fun other otherMem embedded => ?_⟩
      rcases List.mem_append.mp otherMem with old | new
      · apply Finset.mem_union_left
        rw [progress.same]
        exact covered other old embedded
      · rw [List.mem_singleton.mp new]
        exact Finset.mem_union_right _ progress.rooted

/-- The outer loop over some starts. -/
theorem between_foldl (starts passed : List (Fin memories.length))
    {state : Discovery memories.length}
    (kept : Kept memories query similarityThreshold neighborLimit state)
    (between : state.stopped = none →
      Between query similarityThreshold neighborLimit passed state) :
    let later := starts.foldl (discoverFrom memories query similarityThreshold neighborLimit) state
    Kept memories query similarityThreshold neighborLimit later ∧
      (later.stopped = none →
        Between query similarityThreshold neighborLimit (passed ++ starts) later) := by
  induction starts generalizing passed state with
  | nil =>
      rw [List.append_nil]
      exact ⟨kept, between⟩
  | cons start starts inductionHypothesis =>
      obtain ⟨nextKept, nextBetween⟩ := between_discoverFrom distinct start kept between
      have rest := inductionHypothesis (passed ++ [start]) nextKept nextBetween
      rw [List.append_assoc, List.singleton_append] at rest
      exact rest

/-- A whole discovery. -/
theorem between_discovery (query : NeighborQuery) (similarityThreshold : ℚ) (neighborLimit : Nat) :
    let found := discovery memories query similarityThreshold neighborLimit
    Kept memories query similarityThreshold neighborLimit found ∧
      (found.stopped = none →
        Between query similarityThreshold neighborLimit (List.finRange memories.length) found) := by
  refine between_foldl distinct (List.finRange memories.length) [] ?_ fun _ => ?_
  · refine ⟨fun pair pairMem => ?_, List.nodup_nil, fun current currentMem => ?_,
      fun error failed => ?_⟩
    · cases pairMem
    · cases currentMem
    · cases failed
  · refine ⟨fun current currentMem => ?_, Finset.Subset.refl _, fun start startMem => ?_⟩
    · cases currentMem
    · cases startMem

end Invariants

/-! ## Discovery and the threshold graph -/

section Components

variable {memories : List ConsolidationCandidate}

/-- Two candidates of one context profile that are near each other. -/
def ThresholdEdge (memories : List ConsolidationCandidate) (near : MemoryId → MemoryId → Prop)
    (first second : MemoryId) : Prop :=
  ∃ source ∈ memories, ∃ target ∈ memories, source.id = first ∧ target.id = second ∧
    first ≠ second ∧ target.contextIds = source.contextIds ∧ near first second

/-- The query returns candidates of the profile within the threshold only. -/
def NeighborQuery.Truthful (query : NeighborQuery) (memories : List ConsolidationCandidate)
    (similarityThreshold : ℚ) (neighborLimit : Nat) (near : MemoryId → MemoryId → Prop) : Prop :=
  ∀ source ∈ memories, ∀ vector, source.embedding = some vector → ∀ neighbors,
    query source.id (profileIds memories source) vector similarityThreshold neighborLimit =
      .ok neighbors →
    ∀ target ∈ memories, target.id ≠ source.id → ∀ similarity, similarityThreshold ≤ similarity →
      (target.id, similarity) ∈ neighbors → near source.id target.id

/-- The query returns every other candidate of the profile within the threshold;
only candidates with vectors are near others. -/
def NeighborQuery.Complete (query : NeighborQuery) (memories : List ConsolidationCandidate)
    (similarityThreshold : ℚ) (neighborLimit : Nat) (near : MemoryId → MemoryId → Prop) : Prop :=
  ∀ source ∈ memories, ∀ target ∈ memories, target.id ≠ source.id →
    target.contextIds = source.contextIds → near source.id target.id →
    ∃ vector, source.embedding = some vector ∧ ∃ neighbors,
      query source.id (profileIds memories source) vector similarityThreshold neighborLimit =
        .ok neighbors ∧
      ∃ similarity, similarityThreshold ≤ similarity ∧ (target.id, similarity) ∈ neighbors

theorem bfsDiscoverPairs_eq_ok {query : NeighborQuery} {similarityThreshold : ℚ}
    {neighborLimit : Nat} {pairs : List NeighborPair} {capped : Bool}
    (ended : bfsDiscoverPairs memories query similarityThreshold neighborLimit =
      .ok (pairs, capped)) :
    pairs = (discovery memories query similarityThreshold neighborLimit).pairs ∧
      (capped = false →
        (discovery memories query similarityThreshold neighborLimit).stopped = none) := by
  rw [bfsDiscoverPairs] at ended
  split at ended
  · cases ended
  · cases ended
    refine ⟨rfl, fun uncapped => ?_⟩
    cases uncapped
  · next running =>
    cases ended
    exact ⟨rfl, fun _ => running⟩

/-- A pair that was found is an edge of the threshold graph. -/
theorem NeighborPair.Found.thresholdEdge {query : NeighborQuery} {similarityThreshold : ℚ}
    {neighborLimit : Nat} {near : MemoryId → MemoryId → Prop}
    (distinct : (memories.map ConsolidationCandidate.id).Nodup)
    (truthful : query.Truthful memories similarityThreshold neighborLimit near)
    {pair : NeighborPair}
    (found : pair.Found memories query similarityThreshold neighborLimit) :
    ThresholdEdge memories near pair.idA pair.idB := by
  obtain ⟨current, other, neighbors, differ, first, second, answered, admitted⟩ := found
  obtain ⟨vector, candidateIds, embedded, profile, answer⟩ := answered
  have apart : idAt memories other ≠ idAt memories current :=
    (idAt_injective distinct).ne differ.symm
  rw [candidateIdsByProfile_eq (List.get_mem memories current)] at profile
  cases profile
  rw [← first, ← second]
  refine ⟨memories.get current, List.get_mem memories current, memories.get other,
    List.get_mem memories other, rfl, rfl, apart.symm, admitted.alike, ?_⟩
  exact truthful _ (List.get_mem memories current) vector embedded neighbors answer _
    (List.get_mem memories other) apart pair.similarity admitted.close admitted.listed

/-- When every candidate was queried, the edges of the threshold graph are
connected by the pairs. -/
theorem Between.connected_of_thresholdEdge {query : NeighborQuery} {similarityThreshold : ℚ}
    {neighborLimit : Nat} {near : MemoryId → MemoryId → Prop}
    {state : Discovery memories.length}
    (between : Between query similarityThreshold neighborLimit (List.finRange memories.length) state)
    (complete : query.Complete memories similarityThreshold neighborLimit near)
    {first second : MemoryId} (edge : ThresholdEdge memories near first second) :
    Connected memories state.pairs first second := by
  obtain ⟨source, sourceMem, target, targetMem, rfl, rfl, differ, alike, close⟩ := edge
  obtain ⟨vector, embedded, neighbors, answer, similarity, atLeast, listed⟩ :=
    complete source sourceMem target targetMem differ.symm alike close
  obtain ⟨current, rfl⟩ := List.get_of_mem sourceMem
  obtain ⟨other, rfl⟩ := List.get_of_mem targetMem
  have queried : current ∈ state.queried := by
    apply between.settled
    apply between.covered current (List.mem_finRange current)
    rw [embedded]
    rfl
  exact between.explored current queried neighbors
    ⟨vector, _, embedded, candidateIdsByProfile_eq (List.get_mem memories current), answer⟩
    other similarity ⟨listed, alike, atLeast⟩

/-- A discovery over candidates that are listed once each: it ends, and fails
only if the query does; it asks about no candidate twice; its pairs join
different candidates of one profile within the threshold; they connect no candidates that the threshold graph does not connect;
and if it is not capped and the query is complete, they connect all that it
connects. -/
theorem discovery_finds_components (memories : List ConsolidationCandidate)
    (distinct : (memories.map ConsolidationCandidate.id).Nodup) (query : NeighborQuery)
    (similarityThreshold : ℚ) (neighborLimit : Nat) :
    (∀ error, bfsDiscoverPairs memories query similarityThreshold neighborLimit = .error error →
      ∃ source ∈ memories, ∃ candidateIds vector,
        query source.id candidateIds vector similarityThreshold neighborLimit = .error error) ∧
    ((discovery memories query similarityThreshold neighborLimit).asked.map
      (idAt memories)).Nodup ∧
    ∀ pairs capped, bfsDiscoverPairs memories query similarityThreshold neighborLimit =
        .ok (pairs, capped) →
      (∀ pair ∈ pairs, pair.idA ≠ pair.idB ∧ similarityThreshold ≤ pair.similarity ∧
        ∃ source ∈ memories, ∃ target ∈ memories, source.id = pair.idA ∧ target.id = pair.idB ∧
          source.contextIds = target.contextIds) ∧
      ∀ near : MemoryId → MemoryId → Prop,
        query.Truthful memories similarityThreshold neighborLimit near →
          (∀ first second, Connected memories pairs first second →
            Relation.EqvGen (ThresholdEdge memories near) first second) ∧
          (capped = false → query.Complete memories similarityThreshold neighborLimit near →
            ∀ first second, Connected memories pairs first second ↔
              Relation.EqvGen (ThresholdEdge memories near) first second) := by
  obtain ⟨kept, between⟩ := between_discovery distinct query similarityThreshold neighborLimit
  refine ⟨fun error failed => ?_, kept.askedOnce.map (idAt_injective distinct),
    fun pairs capped ended => ?_⟩
  · rw [bfsDiscoverPairs] at failed
    split at failed
    · next reported stopped =>
      cases failed
      obtain ⟨current, candidateIds, vector, answer⟩ := kept.failure error stopped
      exact ⟨memories.get current, List.get_mem memories current, candidateIds, vector, answer⟩
    · cases failed
    · cases failed
  · obtain ⟨rfl, running⟩ := bfsDiscoverPairs_eq_ok ended
    refine ⟨fun pair pairMem => ?_, fun near truthful => ?_⟩
    · obtain ⟨current, other, neighbors, differ, first, second, -, admitted⟩ :=
        kept.emitted pair pairMem
      rw [← first, ← second]
      exact ⟨(idAt_injective distinct).ne differ, admitted.close, memories.get current,
        List.get_mem memories current, memories.get other, List.get_mem memories other, rfl, rfl,
        admitted.alike.symm⟩
    · have sound : ∀ first second, Connected memories
          (discovery memories query similarityThreshold neighborLimit).pairs first second →
            Relation.EqvGen (ThresholdEdge memories near) first second := by
        apply Relation.EqvGen.mono
        rintro first second ⟨-, -, pair, pairMem, rfl, rfl⟩
        exact (kept.emitted pair pairMem).thresholdEdge distinct truthful
      refine ⟨sound, fun uncapped complete first second => ⟨sound first second, fun edges => ?_⟩⟩
      have covered := between (running uncapped)
      induction edges with
      | rel first second edge => exact covered.connected_of_thresholdEdge complete edge
      | refl first => exact .refl _
      | symm first second _ inductionHypothesis => exact .symm _ _ inductionHypothesis
      | trans first second third _ _ early late => exact .trans _ _ _ early late

end Components

/-- A candidate with a vector. -/
def embeddedCandidate (number : Nat) : ConsolidationCandidate :=
  ⟨⟨Memory.plain ⟨number⟩ "agent" "note" 0, some ⟨[.finite 1], "note", ⟨"p", "e", "m", 1⟩⟩⟩, []⟩

/-- A query that finds all candidates identical. -/
def identicalNeighbors : NeighborQuery :=
  fun source candidateIds _ _ _ =>
    .ok ((candidateIds.filter fun id => decide (id ≠ source)).map fun id => (id, 1))

/-- Three identical candidates are one component, through two pairs. -/
theorem discovery_finds_components_identical :
    bfsDiscoverPairs [embeddedCandidate 1, embeddedCandidate 2, embeddedCandidate 3]
        identicalNeighbors 1 5 = .ok ([⟨⟨1⟩, ⟨2⟩, 1⟩, ⟨⟨1⟩, ⟨3⟩, 1⟩], false) ∧
      ∀ first second,
        Connected [embeddedCandidate 1, embeddedCandidate 2, embeddedCandidate 3]
          [⟨⟨1⟩, ⟨2⟩, 1⟩, ⟨⟨1⟩, ⟨3⟩, 1⟩] first second ↔
        Relation.EqvGen (ThresholdEdge
          [embeddedCandidate 1, embeddedCandidate 2, embeddedCandidate 3] fun first second =>
            first ≠ second) first second := by
  have ended : bfsDiscoverPairs [embeddedCandidate 1, embeddedCandidate 2, embeddedCandidate 3]
      identicalNeighbors 1 5 = .ok ([⟨⟨1⟩, ⟨2⟩, 1⟩, ⟨⟨1⟩, ⟨3⟩, 1⟩], false) := by
    decide +kernel
  have same := (discovery_finds_components [embeddedCandidate 1, embeddedCandidate 2,
    embeddedCandidate 3] (by decide) identicalNeighbors 1 5).2.2 _ _ ended
  refine ⟨ended, (same.2 (fun first second => first ≠ second) ?_).2 rfl ?_⟩
  · intro source _ vector _ neighbors _ target _ differ similarity _ _
    exact differ.symm
  · intro source sourceMem target targetMem differ alike _
    have embedded : ∃ vector, source.embedding = some vector := by
      simp only [List.mem_cons, List.not_mem_nil, or_false] at sourceMem
      rcases sourceMem with rfl | rfl | rfl
      · exact ⟨_, rfl⟩
      · exact ⟨_, rfl⟩
      · exact ⟨_, rfl⟩
    obtain ⟨vector, embedded⟩ := embedded
    refine ⟨vector, embedded, _, rfl, 1, le_refl _, ?_⟩
    refine List.mem_map.mpr ⟨target.id, List.mem_filter.mpr ⟨?_, decide_eq_true differ⟩, rfl⟩
    exact List.mem_map.mpr ⟨target, List.mem_filter.mpr ⟨targetMem, decide_eq_true alike⟩, rfl⟩

end LocalHold
