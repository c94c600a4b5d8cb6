import LocalHold.Engine.Fusion
import LocalHold.Ordered.Compaction
import LocalHold.Store.Database
import Mathlib.Algebra.Order.Ring.Rat
import Mathlib.Order.WithBot
import Mathlib.Tactic.Ring

/-!
# Duplicate suppression

Results are walked in score order, and each is penalized by its greatest
similarity to the results selected before it.  The code adjusts scores in place,
collects the positions of the selected results and moves these to the front by
swaps; the greedy rule says which results are kept.  Scores and similarities are
exact rationals.
-/

namespace LocalHold

open Compaction Ranking

/-- A search result with its composite score. -/
structure ScoredResult where
  memory : Memory
  compositeScore : Option ℚ
deriving DecidableEq

/-- `valid_updated_at`. -/
def validUpdatedAt (memory : Memory) (now : Instant) : Option Instant :=
  if memory.updatedAt ≤ now then some memory.updatedAt
  else if memory.createdAt ≤ now then some memory.createdAt
  else none

/-- A value that may be missing, below all others when it is. -/
def orLowest {α : Type} (value : Option α) : WithBot α :=
  value.elim ⊥ WithBot.some

/-- What `cmp_search_result_score_desc` compares, the largest first. -/
def scoreKey (now : Instant) (result : ScoredResult) :
    WithBot ℚ ×ₗ (WithBot Instant ×ₗ MemoryId) :=
  toLex (orLowest result.compositeScore,
    toLex (orLowest (validUpdatedAt result.memory now), result.memory.id))

section Suppression

variable (embeddings : MemoryId → Option Embedding)
  (cosineSimilarity : Embedding → Embedding → ℚ) (lambda : ℚ)

/-! ## The walk -/

/-- The results while they are walked, and `selected_indices`. -/
structure Suppression where
  results : List ScoredResult
  selectedIndices : List Nat

/-- `selected_indices.push(i)`. -/
def Suppression.select (state : Suppression) (i : Nat) : Suppression :=
  { state with selectedIndices := state.selectedIndices ++ [i] }

/-- One pass of the loop of `apply_duplicate_suppression`. -/
def suppressionStep (state : Suppression) (i : Nat) : Suppression :=
  match state.results[i]? with
  | none => state
  | some result =>
      match embeddings result.memory.id with
      | none => state.select i
      | some embedding =>
          let similarities := state.selectedIndices.filterMap fun j =>
            (state.results[j]?).bind fun other =>
              (embeddings other.memory.id).map (cosineSimilarity embedding)
          let penalty := lambda * similarities.foldl max 0 * 100
          match result.compositeScore with
          | some score =>
              let adjusted : Suppression :=
                { state with
                  results := state.results.set i
                    { result with compositeScore := some (score - penalty) } }
              if 0 < score - penalty then adjusted.select i else adjusted
          | none => state.select i

/-- `apply_duplicate_suppression`. -/
def applyDuplicateSuppression (results : List ScoredResult) (now : Instant) : List ScoredResult :=
  if lambda ≤ 0 ∨ results.length < 2 then results
  else
    let walked := (List.range results.length).foldl
      (suppressionStep embeddings cosineSimilarity lambda) ⟨results, []⟩
    let compacted := compact walked.results walked.selectedIndices
    rankBy (scoreKey now) (compacted.1.take compacted.2)

/-! ## The greedy rule -/

/-- The similarities of an embedding to some results, as far as these have
embeddings. -/
def similaritiesTo (embedding : Embedding) (kept : List ScoredResult) : List ℚ :=
  kept.filterMap fun other => (embeddings other.memory.id).map (cosineSimilarity embedding)

variable (greatest : List ℚ → ℚ)

/-- What the greedy rule makes of a result after the results kept before it: one
with an embedding and a score is kept with its adjusted score when this is
positive, any other as it is. -/
def greedyVerdict (kept : List ScoredResult) (result : ScoredResult) : Option ScoredResult :=
  match embeddings result.memory.id, result.compositeScore with
  | some embedding, some score =>
      let adjusted := score -
        lambda * 100 * greatest (similaritiesTo embeddings cosineSimilarity embedding kept)
      if 0 < adjusted then some { result with compositeScore := some adjusted } else none
  | _, _ => some result

/-- The results that the greedy rule keeps, from left to right. -/
def greedyKept (kept : List ScoredResult) : List ScoredResult → List ScoredResult
  | [] => kept
  | result :: rest =>
      greedyKept (kept ++ (greedyVerdict embeddings cosineSimilarity lambda greatest kept
        result).toList) rest

/-- The greatest of some similarities, none of which counts below zero. -/
def greatestFromZero (similarities : List ℚ) : ℚ :=
  similarities.foldl max 0

variable {embeddings cosineSimilarity lambda greatest}

theorem greedyVerdict_memory {kept : List ScoredResult} {result adjusted : ScoredResult}
    (keeps : greedyVerdict embeddings cosineSimilarity lambda greatest kept result =
      some adjusted) : adjusted.memory = result.memory := by
  unfold greedyVerdict at keeps
  split at keeps
  · dsimp only at keeps
    split at keeps
    · cases keeps
      rfl
    · cases keeps
  · cases keeps
    rfl

/-- Each kept result is one of the results, each once and in order. -/
theorem exists_greedyKept (results kept : List ScoredResult) :
    ∃ more, greedyKept embeddings cosineSimilarity lambda greatest kept results = kept ++ more ∧
      (more.map ScoredResult.memory).Sublist (results.map ScoredResult.memory) := by
  induction results generalizing kept with
  | nil => exact ⟨[], by rw [greedyKept, List.append_nil], List.Sublist.refl _⟩
  | cons result rest inductionHypothesis =>
      rw [greedyKept]
      cases verdict : greedyVerdict embeddings cosineSimilarity lambda greatest kept result with
      | none =>
          obtain ⟨more, keptEq, sublist⟩ := inductionHypothesis kept
          refine ⟨more, ?_, sublist.cons _⟩
          rw [Option.toList_none, List.append_nil, keptEq]
      | some adjusted =>
          obtain ⟨more, keptEq, sublist⟩ := inductionHypothesis (kept ++ [adjusted])
          refine ⟨adjusted :: more, ?_, ?_⟩
          · rw [Option.toList_some, keptEq, List.append_assoc, List.singleton_append]
          · rw [List.map_cons, List.map_cons, greedyVerdict_memory verdict]
            exact sublist.cons_cons _

/-! ## The walk follows the greedy rule -/

/-- The state after the first results have been walked: the selected positions
hold the results kept so far, and the others are still to come. -/
structure Walked (kept todo : List ScoredResult) (position : Nat) (state : Suppression) : Prop where
  rest : state.results.drop position = todo
  ascending : state.selectedIndices.Pairwise (· < ·)
  behind : ∀ j ∈ state.selectedIndices, j < position
  inside : ∀ j ∈ state.selectedIndices, j < state.results.length
  selected : state.selectedIndices.map (state.results[·]?) = kept.map some

namespace Walked

variable {kept todo : List ScoredResult} {result : ScoredResult} {position : Nat}
  {state : Suppression}

theorem getElem?_position (walked : Walked kept (result :: todo) position state) :
    state.results[position]? = some result := by
  have head := congrArg List.head? walked.rest
  rwa [List.head?_drop, List.head?_cons] at head

theorem position_lt (walked : Walked kept (result :: todo) position state) :
    position < state.results.length :=
  (List.getElem?_eq_some_iff.mp walked.getElem?_position).1

theorem drop_succ (walked : Walked kept (result :: todo) position state) :
    state.results.drop (position + 1) = todo := by
  have tail := congrArg List.tail walked.rest
  rwa [List.tail_drop, List.tail_cons] at tail

/-- What the selected positions hold. -/
theorem filterMap_selected {β : Type} (walked : Walked kept todo position state)
    (select : ScoredResult → Option β) :
    state.selectedIndices.filterMap (fun j => (state.results[j]?).bind select) =
      kept.filterMap select := by
  have mapped := congrArg (List.filterMap fun row => Option.bind row select) walked.selected
  simpa only [List.filterMap_map, Function.comp_def, Option.bind_some] using mapped

/-- The position just walked is selected. -/
theorem select (walked : Walked kept (result :: todo) position state) :
    Walked (kept ++ [result]) todo (position + 1) (state.select position) where
  rest := walked.drop_succ
  ascending := by
    refine List.pairwise_append.mpr ⟨walked.ascending, List.pairwise_singleton _ _, ?_⟩
    intro j selected last isLast
    rw [List.mem_singleton] at isLast
    exact isLast ▸ walked.behind j selected
  behind := by
    intro j selected
    rcases List.mem_append.mp selected with before | last
    · exact (walked.behind j before).trans (Nat.lt_succ_self position)
    · rw [List.mem_singleton] at last
      exact last ▸ Nat.lt_succ_self position
  inside := by
    intro j selected
    rcases List.mem_append.mp selected with before | last
    · exact walked.inside j before
    · rw [List.mem_singleton] at last
      exact last ▸ walked.position_lt
  selected := by
    change (state.selectedIndices ++ [position]).map (state.results[·]?) = _
    rw [List.map_append, List.map_append, walked.selected, List.map_singleton,
      walked.getElem?_position]
    rfl

/-- The position just walked is passed over. -/
theorem pass (walked : Walked kept (result :: todo) position state) :
    Walked kept todo (position + 1) state where
  rest := walked.drop_succ
  ascending := walked.ascending
  behind := fun j selected => (walked.behind j selected).trans (Nat.lt_succ_self position)
  inside := walked.inside
  selected := walked.selected

/-- The score of the current result is adjusted in place. -/
theorem adjust (walked : Walked kept (result :: todo) position state) (adjusted : ScoredResult) :
    Walked kept (adjusted :: todo) position
      { state with results := state.results.set position adjusted } where
  rest := by
    have inside := walked.position_lt
    rw [List.drop_set, if_neg (Nat.lt_irrefl position), Nat.sub_self, walked.rest]
    rfl
  ascending := walked.ascending
  behind := walked.behind
  inside := by
    intro j selected
    rw [List.length_set]
    exact walked.inside j selected
  selected := by
    rw [← walked.selected]
    refine List.map_congr_left fun j selected => ?_
    exact List.getElem?_set_ne (walked.behind j selected).ne'

variable (embeddings cosineSimilarity lambda)

/-- One pass keeps what the greedy rule keeps. -/
theorem step (walked : Walked kept (result :: todo) position state) :
    Walked (kept ++ (greedyVerdict embeddings cosineSimilarity lambda greatestFromZero kept
        result).toList) todo (position + 1)
      (suppressionStep embeddings cosineSimilarity lambda state position) := by
  rw [suppressionStep, walked.getElem?_position]
  dsimp only
  cases embedded : embeddings result.memory.id with
  | none =>
      have verdict : greedyVerdict embeddings cosineSimilarity lambda greatestFromZero kept result =
          some result := by
        rw [greedyVerdict, embedded]
      rw [verdict]
      exact walked.select
  | some embedding =>
      cases scored : result.compositeScore with
      | none =>
          have verdict : greedyVerdict embeddings cosineSimilarity lambda greatestFromZero kept
              result = some result := by
            rw [greedyVerdict, embedded, scored]
          rw [verdict]
          exact walked.select
      | some score =>
          have similarities : state.selectedIndices.filterMap (fun j =>
              (state.results[j]?).bind fun other =>
                (embeddings other.memory.id).map (cosineSimilarity embedding)) =
              similaritiesTo embeddings cosineSimilarity embedding kept :=
            walked.filterMap_selected _
          have penalty : lambda * (similaritiesTo embeddings cosineSimilarity embedding kept).foldl
              max 0 * 100 = lambda * 100 *
                greatestFromZero (similaritiesTo embeddings cosineSimilarity embedding kept) := by
            rw [greatestFromZero]
            ring
          dsimp only
          rw [similarities, penalty, greedyVerdict, embedded, scored]
          dsimp only
          have adjusted := walked.adjust { result with compositeScore := some (score - lambda * 100 *
            greatestFromZero (similaritiesTo embeddings cosineSimilarity embedding kept)) }
          split
          · exact adjusted.select
          · rw [Option.toList_none, List.append_nil]
            exact adjusted.pass

/-- The whole walk keeps what the greedy rule keeps. -/
theorem run (walked : Walked kept todo position state) :
    Walked (greedyKept embeddings cosineSimilarity lambda greatestFromZero kept todo) []
      (position + todo.length)
      ((List.range' position todo.length).foldl
        (suppressionStep embeddings cosineSimilarity lambda) state) := by
  induction todo generalizing kept position state with
  | nil => exact walked
  | cons result todo inductionHypothesis =>
      have walkedOn := inductionHypothesis (walked.step embeddings cosineSimilarity lambda)
      rw [Nat.add_right_comm] at walkedOn
      exact walkedOn

end Walked

theorem applyDuplicateSuppression_eq {results : List ScoredResult} (now : Instant)
    (positive : 0 < lambda) (several : 2 ≤ results.length) :
    applyDuplicateSuppression embeddings cosineSimilarity lambda results now =
      rankBy (scoreKey now)
        (greedyKept embeddings cosineSimilarity lambda greatestFromZero [] results) := by
  have start : Walked [] results 0 ⟨results, []⟩ :=
    ⟨List.drop_zero, List.Pairwise.nil, by simp, by simp, rfl⟩
  have walked := start.run embeddings cosineSimilarity lambda
  have short : ¬ (lambda ≤ 0 ∨ results.length < 2) := by
    rintro (atMost | few)
    · exact absurd positive (not_lt.mpr atMost)
    · omega
  have inside := walked.inside
  rw [← List.range_eq_range'] at walked inside
  rw [applyDuplicateSuppression, if_neg short]
  dsimp only
  rw [take_compact walked.ascending inside]
  have kept := walked.filterMap_selected some
  simp only [Option.bind_fun_some, List.filterMap_some] at kept
  rw [kept]

/-- At least two results are suppressed as the greedy rule says, where a
similarity below zero is no bonus: what it keeps, each result once with its
adjusted score, is returned in the order of the scores.  Fewer are left alone. -/
theorem duplicate_suppression_greedy (embeddings : MemoryId → Option Embedding)
    (cosineSimilarity : Embedding → Embedding → ℚ) (lambda : ℚ) (positive : 0 < lambda)
    (results : List ScoredResult) (now : Instant) :
    (results.length < 2 →
      applyDuplicateSuppression embeddings cosineSimilarity lambda results now = results) ∧
    (2 ≤ results.length →
      let kept := greedyKept embeddings cosineSimilarity lambda greatestFromZero [] results
      let returned := applyDuplicateSuppression embeddings cosineSimilarity lambda results now
      (kept.map ScoredResult.memory).Sublist (results.map ScoredResult.memory) ∧
        returned = rankBy (scoreKey now) kept ∧ returned.Perm kept ∧
        returned.Pairwise fun first second => scoreKey now second ≤ scoreKey now first) := by
  constructor
  · intro few
    rw [applyDuplicateSuppression, if_pos (Or.inr few)]
  · intro several
    dsimp only
    have returned := @applyDuplicateSuppression_eq embeddings cosineSimilarity lambda results now positive several
    obtain ⟨more, keptEq, sublist⟩ := exists_greedyKept results []
    rw [List.nil_append] at keptEq
    rw [returned]
    refine ⟨?_, rfl, perm_rankBy _ _, pairwise_rankBy _ _⟩
    rw [keptEq]
    exact sublist

end Suppression

/-! ## Examples -/

/-- A result of a memory with a score. -/
def scoredNote (id : Nat) (score : ℚ) : ScoredResult where
  memory := Memory.plain ⟨id⟩ "owner" "a note" 0
  compositeScore := some score

/-- A vector with one entry. -/
def entryVector (entry : ℚ) : Embedding :=
  ⟨[.finite entry], "a note", ⟨"p", "e", "m", 1⟩⟩

/-- The similarity of vectors whose entries are one or minus one. -/
def signSimilarity (first second : Embedding) : ℚ :=
  if first.values = second.values then 1 else -1

/-- The first two memories have the same vector, and the third has none. -/
def twinEmbeddings (id : MemoryId) : Option Embedding :=
  if id.ulid ≤ 2 then some (entryVector 1) else none

/-- The vectors of the first two memories are opposite. -/
def oppositeEmbeddings (id : MemoryId) : Option Embedding :=
  some (entryVector (if id.ulid = 1 then 1 else -1))

/-- A duplicate with a low score is dropped. -/
theorem duplicate_suppression_greedy_twins :
    let results := [scoredNote 1 90, scoredNote 2 50, scoredNote 3 40]
    greedyKept twinEmbeddings signSimilarity 1 greatestFromZero [] results =
        [scoredNote 1 90, scoredNote 3 40] ∧
      applyDuplicateSuppression twinEmbeddings signSimilarity 1 results 0 =
        rankBy (scoreKey 0) [scoredNote 1 90, scoredNote 3 40] := by
  intro results
  have kept : greedyKept twinEmbeddings signSimilarity 1 greatestFromZero [] results =
      [scoredNote 1 90, scoredNote 3 40] := by decide +kernel
  have greedy := (duplicate_suppression_greedy twinEmbeddings signSimilarity 1 (by decide)
    results 0).2 (by decide)
  exact ⟨kept, kept ▸ greedy.2.1⟩

/-- The greatest of some similarities, zero when there are none. -/
def greatestOrZero (similarities : List ℚ) : ℚ :=
  similarities.max?.getD 0

/-- A single result without a positive score is returned, and an opposite vector
is no bonus. -/
theorem duplicate_suppression_not_literal :
    applyDuplicateSuppression twinEmbeddings signSimilarity 1 [scoredNote 1 0] 0 ≠
        rankBy (scoreKey 0)
          (greedyKept twinEmbeddings signSimilarity 1 greatestOrZero [] [scoredNote 1 0]) ∧
      applyDuplicateSuppression oppositeEmbeddings signSimilarity 1
          [scoredNote 1 90, scoredNote 2 50] 0 ≠
        rankBy (scoreKey 0) (greedyKept oppositeEmbeddings signSimilarity 1 greatestOrZero []
          [scoredNote 1 90, scoredNote 2 50]) := by
  decide +kernel

end LocalHold
