import Mathlib.Data.List.Dedup
import Mathlib.Data.List.Sort
import Mathlib.Logic.Function.Iterate
import Mathlib.Logic.Relation

/-!
# Ordered and recursive queries

`ORDER BY` rearranges the selected rows.

`WITH RECURSIVE known AS (start UNION SELECT … FROM rows JOIN known ON edge)`
adds, round after round, the rows that an edge reaches from the rows already
known.  As many rounds as there are rows suffice, because every round but the
last adds a row.  The result is exactly what the edges reach from the start.
-/

namespace Relational

universe u

variable {α : Type u}

/-- The rows in the order of a comparison. -/
def orderBy (before : α → α → Bool) (rows : List α) : List α :=
  rows.insertionSort fun first second => before first second = true

@[simp]
theorem mem_orderBy {before : α → α → Bool} {rows : List α} {row : α} :
    row ∈ orderBy before rows ↔ row ∈ rows :=
  List.mem_insertionSort _

theorem perm_orderBy (before : α → α → Bool) (rows : List α) :
    (orderBy before rows).Perm rows :=
  List.perm_insertionSort _ rows

/-- Rows that are in order stay as they are. -/
theorem orderBy_eq_self {before : α → α → Bool} {rows : List α}
    (ordered : rows.Pairwise fun first second => before first second = true) :
    orderBy before rows = rows :=
  List.Pairwise.insertionSort_eq ordered

theorem filter_orderedInsert {before : α → α → Prop} [DecidableRel before] [IsTrans α before]
    (keep : α → Bool) (row : α) {rows : List α} (sorted : rows.Pairwise before) :
    (rows.orderedInsert before row).filter keep =
      if keep row then (rows.filter keep).orderedInsert before row else rows.filter keep := by
  induction rows with
  | nil =>
      cases kept : keep row <;> simp [kept]
  | cons first rest inductionHypothesis =>
      obtain ⟨least, restSorted⟩ := List.pairwise_cons.mp sorted
      rw [List.orderedInsert_cons]
      by_cases leads : before row first
      · rw [if_pos leads]
        cases kept : keep row with
        | false => simp [kept]
        | true =>
            have front : ∀ other ∈ (first :: rest).filter keep, before row other := by
              intro other otherMem
              rcases List.mem_cons.mp (List.mem_of_mem_filter otherMem) with rfl | inRest
              · exact leads
              · exact trans_of before leads (least other inRest)
            rw [List.filter_cons_of_pos kept, if_pos rfl]
            cases kept : (first :: rest).filter keep with
            | nil => rfl
            | cons head tail =>
                rw [kept] at front
                rw [List.orderedInsert_cons, if_pos (front head List.mem_cons_self)]
      · rw [if_neg leads]
        cases kept : keep first with
        | false =>
            rw [List.filter_cons_of_neg (by simp [kept]), inductionHypothesis restSorted,
              List.filter_cons_of_neg (by simp [kept])]
        | true =>
            rw [List.filter_cons_of_pos kept, inductionHypothesis restSorted,
              List.filter_cons_of_pos kept, List.orderedInsert_cons, if_neg leads]
            split
            · rfl
            · rfl

/-- The order of the rows that are kept does not depend on the others. -/
theorem filter_orderBy {before : α → α → Bool}
    [Std.Total fun first second => before first second = true]
    [IsTrans α fun first second => before first second = true] (keep : α → Bool)
    (rows : List α) :
    (orderBy before rows).filter keep = orderBy before (rows.filter keep) := by
  induction rows with
  | nil => rfl
  | cons row rest inductionHypothesis =>
      rw [orderBy] at inductionHypothesis
      rw [orderBy, List.insertionSort_cons,
        filter_orderedInsert keep row (List.pairwise_insertionSort _ rest), inductionHypothesis]
      cases kept : keep row with
      | true =>
          rw [List.filter_cons_of_pos kept]
          rfl
      | false =>
          rw [List.filter_cons_of_neg (by simp [kept])]
          rfl

/-- Two comparisons that agree on the rows order them alike. -/
theorem orderBy_congr {before other : α → α → Bool} {rows : List α}
    (agree : ∀ first ∈ rows, ∀ second ∈ rows, before first second = other first second) :
    orderBy before rows = orderBy other rows := by
  have mapped := List.map_insertionSort (fun first second => before first second = true)
    (fun first second => other first second = true) id rows fun first firstMem second secondMem => by
      rw [agree first firstMem second secondMem]
      rfl
  simpa [orderBy] using mapped

/-! ## Recursion -/

variable [DecidableEq α]

/-- The rows that one more round adds. -/
def frontier (rows : List α) (edge : α → α → Bool) (known : List α) : List α :=
  rows.filter fun row => !known.contains row && known.any fun source => edge source row

/-- One round of a recursive query. -/
def expandOnce (rows : List α) (edge : α → α → Bool) (known : List α) : List α :=
  known ++ frontier rows edge known

/-- The rows of a recursive query. -/
def recursiveUnion (rows : List α) (edge : α → α → Bool) (start : List α) : List α :=
  (expandOnce rows edge)^[rows.length] start.dedup

/-- An edge to a row of the queried table. -/
def Reaches (rows : List α) (edge : α → α → Bool) (source target : α) : Prop :=
  target ∈ rows ∧ edge source target = true

variable {rows known start : List α} {edge : α → α → Bool} {source target : α}

theorem mem_frontier_iff :
    target ∈ frontier rows edge known ↔
      target ∉ known ∧ ∃ source ∈ known, Reaches rows edge source target := by
  simp only [frontier, List.mem_filter, Bool.and_eq_true, Bool.not_eq_true',
    List.contains_eq_mem, decide_eq_false_iff_not, List.any_eq_true, Reaches]
  constructor
  · rintro ⟨inRows, unknown, source, sourceKnown, linked⟩
    exact ⟨unknown, source, sourceKnown, inRows, linked⟩
  · rintro ⟨unknown, source, sourceKnown, inRows, linked⟩
    exact ⟨inRows, unknown, source, sourceKnown, linked⟩

theorem mem_expandOnce_of_mem (member : target ∈ known) : target ∈ expandOnce rows edge known :=
  List.mem_append_left _ member

/-- A set of rows that no edge leaves. -/
def EdgeClosed (rows : List α) (edge : α → α → Bool) (known : List α) : Prop :=
  ∀ source ∈ known, ∀ target, Reaches rows edge source target → target ∈ known

/-- A round that adds nothing has closed the set. -/
theorem edgeClosed_of_frontier_nil (idle : frontier rows edge known = []) :
    EdgeClosed rows edge known := by
  intro source sourceKnown target reached
  by_contra unknown
  have added := mem_frontier_iff.mpr ⟨unknown, source, sourceKnown, reached⟩
  rw [idle] at added
  cases added

/-- Every round that adds something leaves fewer rows unknown. -/
theorem length_unknown_expandOnce_lt (active : frontier rows edge known ≠ []) :
    (rows.filter fun row => decide (row ∉ expandOnce rows edge known)).length <
      (rows.filter fun row => decide (row ∉ known)).length := by
  obtain ⟨row, added⟩ := List.exists_mem_of_ne_nil _ active
  have unknown : row ∉ known := (mem_frontier_iff.mp added).1
  have inRows : row ∈ rows := (List.mem_filter.mp added).1
  have nested : (rows.filter fun row => decide (row ∉ expandOnce rows edge known)).Sublist
      (rows.filter fun row => decide (row ∉ known)) := by
    apply List.monotone_filter_right
    intro other otherUnknown
    simp only [decide_eq_true_eq] at otherUnknown ⊢
    exact fun otherKnown => otherUnknown (mem_expandOnce_of_mem otherKnown)
  rcases Nat.lt_or_eq_of_le nested.length_le with fewer | same
  · exact fewer
  · exfalso
    have member : row ∈ rows.filter fun row => decide (row ∉ known) := by
      simp [inRows, unknown]
    rw [← nested.eq_of_length same] at member
    simp only [List.mem_filter, decide_eq_true_eq] at member
    exact member.2 (List.mem_append_right _ added)

theorem expandOnce_eq_self_of_frontier_nil (idle : frontier rows edge known = []) :
    expandOnce rows edge known = known := by
  rw [expandOnce, idle, List.append_nil]

/-- Enough rounds close the set. -/
theorem edgeClosed_iterate (rounds : Nat) :
    ∀ known : List α, (rows.filter fun row => decide (row ∉ known)).length ≤ rounds →
      EdgeClosed rows edge ((expandOnce rows edge)^[rounds] known) := by
  induction rounds with
  | zero =>
      intro known enough source _ target reached
      rw [Function.iterate_zero_apply]
      by_contra unknown
      have member : target ∈ rows.filter fun row => decide (row ∉ known) := by
        simp [reached.1, unknown]
      exact absurd (List.length_pos_of_mem member) (by omega)
  | succ rounds inductionHypothesis =>
      intro known enough
      rw [Function.iterate_succ_apply]
      by_cases idle : frontier rows edge known = []
      · rw [expandOnce_eq_self_of_frontier_nil idle,
          Function.iterate_fixed (expandOnce_eq_self_of_frontier_nil idle)]
        exact edgeClosed_of_frontier_nil idle
      · apply inductionHypothesis
        have fewer := length_unknown_expandOnce_lt idle
        omega

theorem mem_iterate_of_mem (rounds : Nat) :
    ∀ known : List α, target ∈ known → target ∈ (expandOnce rows edge)^[rounds] known := by
  induction rounds with
  | zero => exact fun _ member => member
  | succ rounds inductionHypothesis =>
      intro known member
      rw [Function.iterate_succ_apply]
      exact inductionHypothesis _ (mem_expandOnce_of_mem member)

theorem reached_of_mem_iterate (rounds : Nat) :
    ∀ known : List α, target ∈ (expandOnce rows edge)^[rounds] known →
      ∃ source ∈ known, Relation.ReflTransGen (Reaches rows edge) source target := by
  induction rounds with
  | zero => exact fun _ member => ⟨target, member, Relation.ReflTransGen.refl⟩
  | succ rounds inductionHypothesis =>
      intro known member
      rw [Function.iterate_succ_apply] at member
      obtain ⟨middle, middleMem, path⟩ := inductionHypothesis _ member
      rcases List.mem_append.mp middleMem with early | added
      · exact ⟨middle, early, path⟩
      · obtain ⟨_, source, sourceKnown, reached⟩ := mem_frontier_iff.mp added
        exact ⟨source, sourceKnown, Relation.ReflTransGen.head reached path⟩

/-- A recursive query returns what its edges reach from its start. -/
theorem mem_recursiveUnion_iff :
    target ∈ recursiveUnion rows edge start ↔
      ∃ source ∈ start, Relation.ReflTransGen (Reaches rows edge) source target := by
  constructor
  · intro member
    obtain ⟨source, sourceMem, path⟩ := reached_of_mem_iterate _ _ member
    exact ⟨source, List.mem_dedup.mp sourceMem, path⟩
  · rintro ⟨source, sourceMem, path⟩
    have closed : EdgeClosed rows edge (recursiveUnion rows edge start) :=
      edgeClosed_iterate _ _ (List.length_filter_le _ _)
    induction path with
    | refl => exact mem_iterate_of_mem _ _ (List.mem_dedup.mpr sourceMem)
    | tail _ reached inductionHypothesis => exact closed _ inductionHypothesis _ reached

/-- A recursive query returns its start where no edge leaves it. -/
theorem recursiveUnion_eq_start (distinct : start.Nodup)
    (isolated : ∀ source ∈ start, ∀ target ∈ rows, edge source target = false) :
    recursiveUnion rows edge start = start := by
  have idle : frontier rows edge start = [] := by
    apply List.filter_eq_nil_iff.mpr
    intro target targetMem reached
    rw [Bool.and_eq_true, List.any_eq_true] at reached
    obtain ⟨_, source, sourceMem, linked⟩ := reached
    rw [isolated source sourceMem target targetMem] at linked
    cases linked
  rw [recursiveUnion, distinct.dedup]
  exact Function.iterate_fixed (expandOnce_eq_self_of_frontier_nil idle) _

/-- A recursive query returns every row once. -/
theorem nodup_recursiveUnion (rowsNodup : rows.Nodup) :
    (recursiveUnion rows edge start).Nodup := by
  have stepNodup : ∀ known : List α, known.Nodup → (expandOnce rows edge known).Nodup := by
    intro known knownNodup
    apply List.Nodup.append knownNodup (rowsNodup.filter _)
    intro row rowKnown added
    exact (mem_frontier_iff.mp added).1 rowKnown
  have roundsNodup : ∀ (rounds : Nat) (known : List α), known.Nodup →
      ((expandOnce rows edge)^[rounds] known).Nodup := by
    intro rounds
    induction rounds with
    | zero => exact fun _ knownNodup => knownNodup
    | succ rounds inductionHypothesis =>
        intro known knownNodup
        rw [Function.iterate_succ_apply]
        exact inductionHypothesis _ (stepNodup known knownNodup)
  exact roundsNodup _ _ (List.nodup_dedup start)

end Relational
