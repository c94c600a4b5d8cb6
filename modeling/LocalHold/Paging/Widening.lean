import LocalHold.Ordered.Ranking
import Mathlib

/-!
# Widening reads

A search asks for the first rows of a fixed list, tests them, and asks for more
of the list as long as it has found too little.  It stops when it has found
enough, when the list ends, or when a request has reached a cap.  When the list
is ordered by a rank, the best of what it found is the best of the whole list
up to the cap.
-/

namespace Paging

open Ranking

universe u v w x y z

/-! ## The loop -/

/-- How requests grow below a cap. -/
structure Growth (cap : Nat) where
  next : Nat → Nat
  increases : ∀ size, 0 < size → size < cap → size < next size

/-- The size of a request, positive when something is wanted. -/
abbrev RequestSize (wanted : Nat) :=
  { size : Nat // 0 < wanted → 0 < size }

variable {ρ : Type u} {σ : Type v} {ε : Type w} {α : Type x}

section Loop

variable {cap wanted : Nat}

theorem Growth.next_pos (growth : Growth cap) (size : RequestSize wanted)
    (below : ¬cap ≤ size.val) (positive : 0 < wanted) :
    0 < growth.next size.val :=
  (size.property positive).trans
    (growth.increases _ (size.property positive) (by omega))

/-- Ask for more until enough is found, the list is exhausted, or the request
has reached the cap. -/
def widen (growth : Growth cap) (found : σ → Nat) (round : Nat → σ → Except ε (σ × Bool))
    (size : RequestSize wanted) (state : σ) : Except ε σ := do
  let (next, exhausted) ← round size.val state
  if _ : wanted ≤ found next ∨ exhausted = true then
    return next
  else if below : cap ≤ size.val then
    return next
  else
    widen growth found round
      ⟨growth.next size.val, growth.next_pos size below⟩ next
termination_by cap - size.val
decreasing_by
  have positive : 0 < size.val := size.property (by omega)
  have larger := growth.increases size.val positive (by omega)
  omega

/-- A round that, after some of the first rows, has seen as many of them as it
asks for, up to the cap, and says that it is exhausted only when there are no
more. -/
def ReadsFirst (cap : Nat) (rows : List ρ) (seen : List ρ → σ → Prop)
    (round : Nat → σ → Except ε (σ × Bool)) : Prop :=
  ∀ read size state, read ≤ min size cap → seen (rows.take read) state →
    ∃ next exhausted, round size state = .ok (next, exhausted) ∧
      seen (rows.take (min size cap)) next ∧
      (exhausted = true → rows.take cap = rows.take (min size cap))

/-- A widening read ends, and when it found too little it has seen every row up
to the cap. -/
theorem ReadsFirst.widen_ok {rows : List ρ} {seen : List ρ → σ → Prop}
    {round : Nat → σ → Except ε (σ × Bool)} (reads : ReadsFirst cap rows seen round)
    (growth : Growth cap) (found : σ → Nat) (size : RequestSize wanted) (state : σ) {read : Nat}
    (below : read ≤ min size.val cap) (start : seen (rows.take read) state) :
    ∃ final count, widen growth found round size state = .ok final ∧
      count ≤ cap ∧ seen (rows.take count) final ∧
      (wanted ≤ found final ∨ rows.take cap = rows.take count) := by
  obtain ⟨next, exhausted, ran, nextSeen, ended⟩ := reads read size.val state below start
  rw [widen, ran]
  change ∃ final count, (if _ : wanted ≤ found next ∨ exhausted = true then .ok next
    else if _ : cap ≤ size.val then .ok next
    else widen growth found round _ next) = .ok final ∧ _
  split
  case isTrue stops =>
    refine ⟨next, min size.val cap, rfl, min_le_right _ _, nextSeen, ?_⟩
    rcases stops with enough | spent
    · exact Or.inl enough
    · exact Or.inr (ended spent)
  case isFalse proceeds =>
    split
    case isTrue full =>
      refine ⟨next, min size.val cap, rfl, min_le_right _ _, nextSeen, Or.inr ?_⟩
      rw [min_eq_right full]
    case isFalse room =>
      have positive : 0 < size.val := size.property (by omega)
      have larger := growth.increases size.val positive (by omega)
      exact ReadsFirst.widen_ok reads growth found _ next (by dsimp only; omega) nextSeen
termination_by cap - size.val
decreasing_by omega

end Loop

/-! ## What is kept -/

section Kept

variable {κ : Type y} {δ : Type z} [LinearOrder κ] [LinearOrder δ]

/-- What a widening read found: the accepted rows of a first part of the list,
which is the whole list up to the cap when they are too few. -/
def Found (accept : ρ → Option α) (cap wanted : Nat) (rows : List ρ) (found : List α) : Prop :=
  ∃ count, count ≤ cap ∧ found.Perm ((rows.take count).filterMap accept) ∧
    (wanted ≤ found.length ∨ rows.take cap = rows.take count)

variable {accept : ρ → Option α} {cap wanted : Nat} {rows : List ρ} {found : List α}

/-- The rows by rising keys. -/
def nearestFirst (key : α → κ) (found : List α) : List α :=
  rankBy (fun row => OrderDual.toDual (key row)) found

theorem pairwise_nearestFirst (key : α → κ) (found : List α) :
    (nearestFirst key found).Pairwise fun first second => key first ≤ key second :=
  (pairwise_rankBy (fun row => OrderDual.toDual (key row)) found).imp fun ordered =>
    OrderDual.toDual_le_toDual.mp ordered

/-- What is kept of it: the `wanted` nearest. -/
def kept (key : α → κ) (wanted : Nat) (found : List α) : List α :=
  (nearestFirst key found).take wanted

theorem mem_of_mem_kept {key : α → κ} {row : α} (member : row ∈ kept key wanted found) :
    row ∈ found :=
  mem_rankBy.mp (List.mem_of_mem_take member)

theorem Found.accepted {key : α → κ} (reads : Found accept cap wanted rows found) {row : α}
    (member : row ∈ kept key wanted found) :
    ∃ source ∈ rows.take cap, accept source = some row := by
  obtain ⟨count, below, same, _⟩ := reads
  obtain ⟨source, sourceMem, isAccepted⟩ :=
    List.mem_filterMap.mp (same.mem_iff.mp (mem_of_mem_kept member))
  exact ⟨source, List.take_subset_take_left rows below sourceMem, isAccepted⟩

/-- Too few rows are kept only when all accepted rows are. -/
theorem Found.complete {key : α → κ} (reads : Found accept cap wanted rows found)
    (few : (kept key wanted found).length < wanted) {source : ρ} {row : α}
    (sourceMem : source ∈ rows.take cap) (isAccepted : accept source = some row) :
    row ∈ kept key wanted found := by
  obtain ⟨count, _, same, ended⟩ := reads
  have sameLength := (perm_rankBy (fun row => OrderDual.toDual (key row)) found).length_eq
  rw [kept, nearestFirst, List.length_take] at few
  have whole : rows.take cap = rows.take count := by
    rcases ended with enough | whole
    · omega
    · exact whole
  rw [kept, nearestFirst, List.take_of_length_le (by omega), mem_rankBy, same.mem_iff]
  exact List.mem_filterMap.mpr ⟨source, whole ▸ sourceMem, isAccepted⟩

/-- A row that is not kept is not nearer than one that is, where the list is in
the order of a rank that the key looks at first. -/
theorem Found.nearest {key : α → κ} (reads : Found accept cap wanted rows found) {rank : ρ → δ}
    (sorted : rows.Pairwise fun first second => rank first ≤ rank second)
    (leads : ∀ source row other shown, accept source = some row → accept other = some shown →
      key row ≤ key shown → rank source ≤ rank other)
    {source other : ρ} {row shown : α} (isAccepted : accept source = some row)
    (member : row ∈ kept key wanted found) (otherMem : other ∈ rows.take cap)
    (otherAccepted : accept other = some shown) (leftOut : shown ∉ kept key wanted found) :
    rank source ≤ rank other := by
  obtain ⟨count, _, same, _⟩ := reads
  have rowFound := mem_of_mem_kept member
  obtain ⟨read, readMem, readAccepted⟩ := List.mem_filterMap.mp (same.mem_iff.mp rowFound)
  have alike : rank source ≤ rank read := leads _ _ _ _ isAccepted readAccepted le_rfl
  refine alike.trans ?_
  by_cases seen : shown ∈ found
  · have later : shown ∈ (nearestFirst key found).drop wanted := by
      have ranked : shown ∈ nearestFirst key found := mem_rankBy.mpr seen
      rw [← List.take_append_drop wanted (nearestFirst key found), List.mem_append] at ranked
      exact ranked.resolve_left leftOut
    have ordered := pairwise_nearestFirst key found
    rw [← List.take_append_drop wanted (nearestFirst key found)] at ordered
    exact leads _ _ _ _ readAccepted otherAccepted
      ((List.pairwise_append.mp ordered).2.2 row member shown later)
  · have beyond : other ∈ rows.drop count := by
      have listed := List.mem_of_mem_take otherMem
      rw [← List.take_append_drop count rows, List.mem_append] at listed
      exact listed.resolve_left fun early =>
        seen (same.mem_iff.mpr (List.mem_filterMap.mpr ⟨other, early, otherAccepted⟩))
    rw [← List.take_append_drop count rows] at sorted
    exact (List.pairwise_append.mp sorted).2.2 read readMem other beyond

end Kept

end Paging
