import LocalHold.Relational.Query
import Mathlib.Order.Defs.LinearOrder

/-!
# Rankings

Rows are ranked by a key, the largest first.  When different rows have different
keys the ranking does not depend on the order of the rows before it, and cutting
it off keeps the best.
-/

namespace Ranking

open Relational

universe u v

variable {α : Type u} {κ : Type v} [LinearOrder κ] {key : α → κ}

/-! ## The largest row -/

/-- The row with the largest key; the last of several. -/
def lastMaxBy (key : α → κ) : List α → Option α
  | [] => none
  | first :: rest =>
      some (rest.foldl (fun best next => if key best ≤ key next then next else best) first)

theorem foldl_lastMaxBy (rest : List α) (first : α) :
    let best := rest.foldl (fun best next => if key best ≤ key next then next else best) first
    best ∈ first :: rest ∧ ∀ row ∈ first :: rest, key row ≤ key best := by
  induction rest generalizing first with
  | nil => simp
  | cons next rest inductionHypothesis =>
      rw [List.foldl_cons]
      by_cases larger : key first ≤ key next
      · rw [if_pos larger]
        obtain ⟨member, largest⟩ := inductionHypothesis next
        refine ⟨List.mem_cons_of_mem first member, fun row rowMem => ?_⟩
        rcases List.mem_cons.mp rowMem with rfl | later
        · exact larger.trans (largest next List.mem_cons_self)
        · exact largest row later
      · rw [if_neg larger]
        obtain ⟨member, largest⟩ := inductionHypothesis first
        refine ⟨?_, fun row rowMem => ?_⟩
        · rcases List.mem_cons.mp member with same | later
          · rw [same]
            exact List.mem_cons_self
          · exact List.mem_cons_of_mem first (List.mem_cons_of_mem next later)
        · rcases List.mem_cons.mp rowMem with rfl | later
          · exact largest row List.mem_cons_self
          · rcases List.mem_cons.mp later with rfl | later
            · exact (not_le.mp larger).le.trans (largest first List.mem_cons_self)
            · exact largest row (List.mem_cons_of_mem first later)

theorem lastMaxBy_eq_some {rows : List α} {best : α} (found : lastMaxBy key rows = some best) :
    best ∈ rows ∧ ∀ row ∈ rows, key row ≤ key best := by
  cases rows with
  | nil => cases found
  | cons first rest =>
      cases found
      exact foldl_lastMaxBy rest first

theorem exists_lastMaxBy (key : α → κ) {rows : List α} (nonempty : rows ≠ []) :
    ∃ best, lastMaxBy key rows = some best := by
  cases rows with
  | nil => exact absurd rfl nonempty
  | cons first rest => exact ⟨_, rfl⟩

/-! ## Ranking -/

/-- The rows by falling keys; rows of one key stay in order. -/
def rankBy (key : α → κ) (rows : List α) : List α :=
  orderBy (fun first second => decide (key second ≤ key first)) rows

@[simp]
theorem mem_rankBy {rows : List α} {row : α} : row ∈ rankBy key rows ↔ row ∈ rows :=
  mem_orderBy

theorem perm_rankBy (key : α → κ) (rows : List α) : (rankBy key rows).Perm rows :=
  perm_orderBy _ rows

theorem pairwise_rankBy (key : α → κ) (rows : List α) :
    (rankBy key rows).Pairwise fun first second => key second ≤ key first := by
  have total : Std.Total fun first second : α => decide (key second ≤ key first) = true :=
    ⟨fun first second => by simpa using le_total (key second) (key first)⟩
  have trans : IsTrans α fun first second => decide (key second ≤ key first) = true :=
    ⟨fun first second third early late => by
      simp only [decide_eq_true_iff] at early late ⊢
      exact late.trans early⟩
  have sorted := List.pairwise_insertionSort
    (fun first second : α => decide (key second ≤ key first) = true) rows
  exact sorted.imp fun ordered => of_decide_eq_true ordered

/-- Rows with different keys have one ranking. -/
theorem rankBy_eq_of_perm {rows others : List α} (same : rows.Perm others)
    (inj : ∀ first ∈ rows, ∀ second ∈ rows, key first = key second → first = second) :
    rankBy key rows = rankBy key others := by
  have perm : (rankBy key rows).Perm (rankBy key others) :=
    (perm_rankBy key rows).trans (same.trans (perm_rankBy key others).symm)
  refine perm.eq_of_pairwise (fun first second firstMem secondMem below above => ?_)
    (pairwise_rankBy key rows) (pairwise_rankBy key others)
  exact inj first (mem_rankBy.mp firstMem) second (same.mem_iff.mpr (mem_rankBy.mp secondMem))
    (le_antisymm above below)

end Ranking
