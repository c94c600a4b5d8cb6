import Mathlib.Data.List.Dedup

/-!
# Rows grouped by a key

A hash map from keys to lists: a key that never got a row has no entry.  The
entry of a key holds its rows in the order in which they were pushed.
-/

namespace Relational

universe u v

variable {κ : Type u} {β : Type v} [DecidableEq κ]

/-- Lists by key. -/
abbrev Groups (κ : Type u) (β : Type v) : Type (max u v) :=
  κ → Option (List β)

namespace Groups

/-- No entry. -/
def empty : Groups κ β :=
  fun _ => none

/-- Add a row to the entry of its key. -/
def push (groups : Groups κ β) (row : κ × β) : Groups κ β :=
  fun key => if key = row.1 then some ((groups key).getD [] ++ [row.2]) else groups key

/-- Add rows one after another. -/
def pushAll (groups : Groups κ β) (rows : List (κ × β)) : Groups κ β :=
  rows.foldl push groups

/-- Forget the entry of a key. -/
def remove (groups : Groups κ β) (removed : κ) : Groups κ β :=
  fun key => if key = removed then none else groups key

/-- The entry with given rows. -/
def entry (rows : List β) : Option (List β) :=
  if rows.isEmpty then none else some rows

/-- The rows of a key. -/
def rowsOf (key : κ) (rows : List (κ × β)) : List β :=
  rows.filterMap fun row => if row.1 = key then some row.2 else none

omit [DecidableEq κ] in
@[simp]
theorem empty_apply (key : κ) : (empty : Groups κ β) key = none :=
  rfl

theorem push_self (groups : Groups κ β) (row : κ × β) :
    groups.push row row.1 = some ((groups row.1).getD [] ++ [row.2]) :=
  if_pos rfl

theorem push_of_ne {groups : Groups κ β} {row : κ × β} {key : κ} (other : key ≠ row.1) :
    groups.push row key = groups key :=
  if_neg other

@[simp]
theorem remove_of_ne {groups : Groups κ β} {key removed : κ} (other : key ≠ removed) :
    groups.remove removed key = groups key :=
  if_neg other

theorem mem_rowsOf_iff {key : κ} {rows : List (κ × β)} {value : β} :
    value ∈ rowsOf key rows ↔ (key, value) ∈ rows := by
  rw [rowsOf, List.mem_filterMap]
  constructor
  · rintro ⟨⟨rowKey, rowValue⟩, rowMem, found⟩
    split at found
    case isTrue same =>
      cases same
      cases found
      exact rowMem
    case isFalse => cases found
  · intro rowMem
    exact ⟨(key, value), rowMem, if_pos rfl⟩

/-- An entry grows by the rows of its key. -/
theorem getD_pushAll (groups : Groups κ β) (rows : List (κ × β)) (key : κ) :
    (groups.pushAll rows key).getD [] = (groups key).getD [] ++ rowsOf key rows := by
  induction rows generalizing groups with
  | nil => simp [pushAll, rowsOf]
  | cons row rows inductionHypothesis =>
      have pushed := inductionHypothesis (groups.push row)
      rw [pushAll] at pushed ⊢
      rw [List.foldl_cons, pushed]
      by_cases same : row.1 = key
      · subst same
        simp [push_self, rowsOf]
      · rw [push_of_ne (Ne.symm same)]
        simp [rowsOf, same]

/-- An entry is never an empty list. -/
def NoneEmpty (groups : Groups κ β) : Prop :=
  ∀ key, groups key ≠ some []

omit [DecidableEq κ] in
theorem noneEmpty_empty : (empty : Groups κ β).NoneEmpty := by
  intro key
  simp

theorem NoneEmpty.push {groups : Groups κ β} (noneEmpty : groups.NoneEmpty) (row : κ × β) :
    (groups.push row).NoneEmpty := by
  intro key
  by_cases same : key = row.1
  · subst same
    simp [push_self]
  · rw [push_of_ne same]
    exact noneEmpty key

theorem NoneEmpty.pushAll {groups : Groups κ β} (noneEmpty : groups.NoneEmpty)
    (rows : List (κ × β)) : (groups.pushAll rows).NoneEmpty := by
  induction rows generalizing groups with
  | nil => exact noneEmpty
  | cons row rows inductionHypothesis => exact inductionHypothesis (noneEmpty.push row)

omit [DecidableEq κ] in
/-- An entry is given by its rows. -/
theorem NoneEmpty.eq_entry {groups : Groups κ β} (noneEmpty : groups.NoneEmpty) (key : κ) :
    groups key = entry ((groups key).getD []) := by
  cases found : groups key with
  | none => rfl
  | some rows =>
      cases rows with
      | nil => exact absurd found (noneEmpty key)
      | cons row rows => rfl

/-- Grouping from nothing: an entry for each key with rows. -/
theorem pushAll_empty (rows : List (κ × β)) (key : κ) :
    (empty : Groups κ β).pushAll rows key = entry (rowsOf key rows) := by
  have grouped : ((empty : Groups κ β).pushAll rows).NoneEmpty := noneEmpty_empty.pushAll rows
  rw [grouped.eq_entry key, getD_pushAll]
  rfl

/-- The entries after grouping: each key once, with its rows. -/
def entries (rows : List (κ × β)) : List (κ × List β) :=
  (rows.map Prod.fst).dedup.map fun key => (key, rowsOf key rows)

theorem mem_entries_iff {rows : List (κ × β)} {key : κ} {values : List β} :
    (key, values) ∈ entries rows ↔ key ∈ rows.map Prod.fst ∧ values = rowsOf key rows := by
  rw [entries, List.mem_map]
  constructor
  · rintro ⟨found, foundMem, same⟩
    cases same
    exact ⟨List.mem_dedup.mp foundMem, rfl⟩
  · rintro ⟨keyMem, rfl⟩
    exact ⟨key, List.mem_dedup.mpr keyMem, rfl⟩

theorem keys_entries (rows : List (κ × β)) :
    (entries rows).map Prod.fst = (rows.map Prod.fst).dedup := by
  rw [entries, List.map_map]
  exact List.map_id _

theorem nodup_entries (rows : List (κ × β)) : (entries rows).Nodup := by
  have keys : ((entries rows).map Prod.fst).Nodup := by
    rw [keys_entries]
    exact List.nodup_dedup _
  exact keys.of_map

end Groups

/-- The order in which a hash map lists its entries: any order. -/
structure Iteration (α : Type u) where
  arrange : List α → List α
  perm : ∀ entries, (arrange entries).Perm entries

/-- A map that lists its entries as they were inserted. -/
def Iteration.inserted (α : Type u) : Iteration α :=
  ⟨id, fun entries => List.Perm.refl entries⟩

/-- A hash map collected from pairs: the last value of a key stays. -/
def collect (pairs : List (κ × β)) (key : κ) : Option β :=
  (pairs.reverse.find? fun pair => decide (pair.1 = key)).map Prod.snd

/-- With distinct keys every pair is found. -/
theorem collect_eq_some_iff {pairs : List (κ × β)} (distinct : (pairs.map Prod.fst).Nodup)
    {key : κ} {value : β} : collect pairs key = some value ↔ (key, value) ∈ pairs := by
  rw [collect, Option.map_eq_some_iff]
  constructor
  · rintro ⟨pair, found, rfl⟩
    have named : pair.1 = key := by simpa using List.find?_some found
    rw [← named]
    exact List.mem_reverse.mp (List.mem_of_find?_eq_some found)
  · intro member
    have present : ((pairs.reverse.find? fun pair => decide (pair.1 = key))).isSome := by
      rw [List.find?_isSome]
      exact ⟨(key, value), List.mem_reverse.mpr member, by simp⟩
    obtain ⟨pair, found⟩ := Option.isSome_iff_exists.mp present
    have named : pair.1 = key := by simpa using List.find?_some found
    have pairMem := List.mem_reverse.mp (List.mem_of_find?_eq_some found)
    exact ⟨pair, found, by rw [List.inj_on_of_nodup_map distinct pairMem member named]⟩

end Relational
