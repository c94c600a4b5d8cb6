import Mathlib.Data.List.Basic
import Mathlib.Order.Defs.LinearOrder
import Mathlib.Order.Basic
import Mathlib.Data.Nat.Basic

/-!
# Compaction in place

Rows at increasing positions are moved to the front by swaps.  A swap puts a row
that is not wanted into a later position, which is the position just read, so
that no wanted row is overwritten before it is read.
-/

namespace Compaction

universe u

variable {α : Type u}

/-- Swap two positions. -/
def swapAt (rows : List α) (i j : Nat) : List α :=
  match rows[i]?, rows[j]? with
  | some first, some second => (rows.set i second).set j first
  | _, _ => rows

/-- Move the row at a position to the next free one. -/
def compactStep (state : List α × Nat) (read : Nat) : List α × Nat :=
  (if state.2 ≠ read then swapAt state.1 state.2 read else state.1, state.2 + 1)

/-- Move the rows at some positions to the front, and count them. -/
def compact (rows : List α) (reads : List Nat) : List α × Nat :=
  reads.foldl compactStep (rows, 0)

@[simp]
theorem length_swapAt (rows : List α) (i j : Nat) : (swapAt rows i j).length = rows.length := by
  rw [swapAt]
  split <;> simp

theorem getElem?_swapAt_of_ne {rows : List α} {i j k : Nat} (notFirst : i ≠ k) (notSecond : j ≠ k) :
    (swapAt rows i j)[k]? = rows[k]? := by
  rw [swapAt]
  split
  · rw [List.getElem?_set_ne notSecond, List.getElem?_set_ne notFirst]
  · rfl

/-- The earlier position receives the row of the later one. -/
theorem getElem?_swapAt_left {rows : List α} {i j : Nat} (before : i < j) (inside : j < rows.length) :
    (swapAt rows i j)[i]? = rows[j]? := by
  have first : rows[i]? = some rows[i] := List.getElem?_eq_getElem (before.trans inside)
  have second : rows[j]? = some rows[j] := List.getElem?_eq_getElem inside
  rw [swapAt, first, second]
  dsimp only
  rw [List.getElem?_set_ne before.ne', List.getElem?_set_self (before.trans inside)]

theorem take_swapAt {rows : List α} {i j : Nat} (before : i < j) :
    (swapAt rows i j).take i = rows.take i := by
  rw [swapAt]
  split
  · rw [List.take_set_of_le before.le, List.take_set_of_le (Nat.le_refl i)]
  · rfl

/-- What is at the front after some positions have been read, and what the
positions still to be read hold. -/
structure Compacting (rows : List α) (reads : List Nat) (state : List α × Nat) : Prop where
  behind : ∀ read ∈ reads, state.2 ≤ read
  inside : ∀ read ∈ reads, read < state.1.length
  unread : ∀ read ∈ reads, state.1[read]? = rows[read]?

/-- A step appends the row it reads to the front and keeps the rows to be read. -/
theorem Compacting.step {rows : List α} {read : Nat} {reads : List Nat} {state : List α × Nat}
    (ascending : (read :: reads).Pairwise (· < ·)) (compacting : Compacting rows (read :: reads) state) :
    Compacting rows reads (compactStep state read) ∧
      (compactStep state read).1.take (compactStep state read).2 =
        state.1.take state.2 ++ rows[read]?.toList := by
  obtain ⟨current, write⟩ := state
  have later {next : Nat} (nextMem : next ∈ reads) : read < next :=
    List.rel_of_pairwise_cons ascending nextMem
  have behind : write ≤ read := compacting.behind read List.mem_cons_self
  have inside : read < current.length := compacting.inside read List.mem_cons_self
  have unread : current[read]? = rows[read]? := compacting.unread read List.mem_cons_self
  by_cases same : write = read
  · subst same
    rw [compactStep, if_neg (not_not_intro rfl)]
    refine ⟨⟨?_, ?_, ?_⟩, ?_⟩
    · exact fun next nextMem => later nextMem
    · exact fun next nextMem => compacting.inside next (List.mem_cons_of_mem _ nextMem)
    · exact fun next nextMem => compacting.unread next (List.mem_cons_of_mem _ nextMem)
    · rw [List.take_add_one, unread]
  · have before : write < read := Nat.lt_of_le_of_ne behind same
    rw [compactStep, if_pos same]
    refine ⟨⟨?_, ?_, ?_⟩, ?_⟩
    · exact fun next nextMem => before.trans (later nextMem)
    · intro next nextMem
      rw [length_swapAt]
      exact compacting.inside next (List.mem_cons_of_mem _ nextMem)
    · intro next nextMem
      have after := later nextMem
      rw [getElem?_swapAt_of_ne (before.trans after).ne after.ne]
      exact compacting.unread next (List.mem_cons_of_mem _ nextMem)
    · rw [List.take_add_one, take_swapAt before, getElem?_swapAt_left before inside, unread]

/-- The rows at increasing positions end at the front, each once and in order. -/
theorem take_foldl_compactStep {rows : List α} {reads : List Nat} {state : List α × Nat}
    (ascending : reads.Pairwise (· < ·)) (compacting : Compacting rows reads state) :
    (reads.foldl compactStep state).1.take (reads.foldl compactStep state).2 =
      state.1.take state.2 ++ reads.filterMap (rows[·]?) := by
  induction reads generalizing state with
  | nil => simp
  | cons read reads inductionHypothesis =>
      obtain ⟨next, front⟩ := compacting.step ascending
      rw [List.foldl_cons, inductionHypothesis ascending.of_cons next, front, List.append_assoc]
      cases row : rows[read]? with
      | none => rw [List.filterMap_cons_none row]; rfl
      | some found => rw [List.filterMap_cons_some row]; rfl

theorem take_compact {rows : List α} {reads : List Nat} (ascending : reads.Pairwise (· < ·))
    (inside : ∀ read ∈ reads, read < rows.length) :
    (compact rows reads).1.take (compact rows reads).2 = reads.filterMap (rows[·]?) := by
  have start : Compacting rows reads (rows, 0) :=
    ⟨fun _ _ => Nat.zero_le _, inside, fun _ _ => rfl⟩
  rw [compact, take_foldl_compactStep ascending start]
  rfl

end Compaction
