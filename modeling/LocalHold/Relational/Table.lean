import Mathlib.Data.List.Nodup
import Mathlib.Data.List.Perm.Basic

/-!
# Keyed tables

A table is a list of rows whose primary keys are pairwise distinct.  The
operations follow the row-level statements of a relational store: lookup by
key, selection by predicate, insertion with a uniqueness check, in-place update
and deletion.  Every operation returns a table, so uniqueness of the key never
has to be re-established by a caller.

The lemmas describe each operation through lookups and selections.  Clients
reason with those equations and do not inspect the row list.
-/

namespace Relational

universe u v

/-- A finite table of rows with pairwise distinct keys. -/
structure Table {κ : Type u} {ρ : Type v} (key : ρ → κ) where
  /-- The rows in insertion order. -/
  rows : List ρ
  /-- No two rows share a primary key. -/
  nodup : (rows.map key).Nodup

namespace Table

variable {κ : Type u} {ρ : Type v} {key : ρ → κ}

instance [DecidableEq ρ] : DecidableEq (Table key) := fun first second =>
  decidable_of_iff (first.rows = second.rows) (by
    constructor
    · intro equal
      cases first
      cases second
      simpa using equal
    · rintro rfl
      rfl)

@[ext]
theorem ext_rows {first second : Table key} (rows : first.rows = second.rows) : first = second := by
  cases first
  cases second
  simpa using rows

/-- The table without rows. -/
def empty : Table key :=
  ⟨[], by simp⟩

instance : Inhabited (Table key) :=
  ⟨empty⟩

instance : Membership ρ (Table key) :=
  ⟨fun table row => row ∈ table.rows⟩

theorem mem_def {table : Table key} {row : ρ} : row ∈ table ↔ row ∈ table.rows :=
  Iff.rfl

@[simp]
theorem not_mem_empty (row : ρ) : row ∉ (empty : Table key) := by
  simp [mem_def, empty]

/-- Two rows with one key are the same row. -/
theorem eq_of_mem_of_key_eq {table : Table key} {first second : ρ}
    (firstMem : first ∈ table) (secondMem : second ∈ table)
    (keyEq : key first = key second) : first = second :=
  List.inj_on_of_nodup_map table.nodup firstMem secondMem keyEq

/-- The rows that satisfy a predicate, in insertion order. -/
def select (table : Table key) (keep : ρ → Bool) : List ρ :=
  table.rows.filter keep

theorem nodup_select (table : Table key) (keep : ρ → Bool) : (table.select keep).Nodup :=
  (List.Nodup.of_map key table.nodup).filter keep

theorem mem_select_iff {table : Table key} {keep : ρ → Bool} {row : ρ} :
    row ∈ table.select keep ↔ row ∈ table ∧ keep row = true := by
  simp [select, mem_def]

/-- Delete the rows that satisfy a predicate. -/
def deleteWhere (table : Table key) (drop : ρ → Bool) : Table key :=
  ⟨table.rows.filter fun row => !drop row,
    table.nodup.sublist (List.filter_sublist.map key)⟩

@[simp]
theorem mem_deleteWhere_iff {table : Table key} {drop : ρ → Bool} {row : ρ} :
    row ∈ table.deleteWhere drop ↔ row ∈ table ∧ drop row = false := by
  simp [deleteWhere, mem_def]

/-- Deleting rows that a selection never sees leaves the selection alone. -/
theorem select_deleteWhere_of_disjoint {table : Table key} {keep drop : ρ → Bool}
    (disjoint : ∀ row, keep row = true → drop row = false) :
    (table.deleteWhere drop).select keep = table.select keep := by
  simp only [select, deleteWhere, List.filter_filter]
  apply List.filter_congr
  intro row _
  cases kept : keep row with
  | false => simp
  | true => simp [disjoint row kept]

/-- No deleted row is selected. -/
theorem select_deleteWhere_self {table : Table key} {drop : ρ → Bool} :
    (table.deleteWhere drop).select drop = [] := by
  simp only [select, deleteWhere, List.filter_filter, List.filter_eq_nil_iff]
  intro row _
  cases drop row <;> simp

/-- Rewrite the rows that satisfy a predicate; the rewrite keeps the key. -/
def updateWhere (table : Table key) (hit : ρ → Bool) (change : ρ → ρ)
    (keepsKey : ∀ row, key (change row) = key row := by intro _; rfl) : Table key :=
  ⟨table.rows.map fun row => if hit row then change row else row, by
    have sameKeys :
        (table.rows.map fun row => if hit row then change row else row).map key =
          table.rows.map key := by
      rw [List.map_map]
      apply List.map_congr_left
      intro row _
      by_cases hitRow : hit row = true
      · simp [hitRow, keepsKey]
      · simp [hitRow]
    rw [sameKeys]
    exact table.nodup⟩

theorem mem_updateWhere_iff {table : Table key} {hit : ρ → Bool} {change : ρ → ρ}
    {keepsKey : ∀ row, key (change row) = key row} {row : ρ} :
    row ∈ table.updateWhere hit change keepsKey ↔
      ∃ old ∈ table, (if hit old then change old else old) = row := by
  simp [updateWhere, mem_def]

section Lookup

variable [DecidableEq κ]

/-- The row stored under a key. -/
def find? (table : Table key) (k : κ) : Option ρ :=
  table.rows.find? fun row => key row = k

@[simp]
theorem find?_empty (k : κ) : (empty : Table key).find? k = none :=
  rfl

theorem find?_eq_some_iff {table : Table key} {k : κ} {row : ρ} :
    table.find? k = some row ↔ row ∈ table ∧ key row = k := by
  constructor
  · intro found
    exact ⟨List.mem_of_find?_eq_some found, by simpa using List.find?_some found⟩
  · rintro ⟨rowMem, rfl⟩
    cases found : table.find? (key row) with
    | none =>
        have absent := List.find?_eq_none.mp found row rowMem
        simp at absent
    | some other =>
        have otherMem : other ∈ table := List.mem_of_find?_eq_some found
        have otherKey : key other = key row := by simpa using List.find?_some found
        rw [eq_of_mem_of_key_eq otherMem rowMem otherKey]

theorem find?_eq_none_iff {table : Table key} {k : κ} :
    table.find? k = none ↔ ∀ row ∈ table, key row ≠ k := by
  simp [find?, mem_def]

theorem find?_key {table : Table key} {k : κ} {row : ρ} (found : table.find? k = some row) :
    key row = k :=
  (find?_eq_some_iff.mp found).2

theorem mem_of_find? {table : Table key} {k : κ} {row : ρ} (found : table.find? k = some row) :
    row ∈ table :=
  (find?_eq_some_iff.mp found).1

theorem mem_iff_find? {table : Table key} {row : ρ} :
    row ∈ table ↔ table.find? (key row) = some row := by
  simp [find?_eq_some_iff]

/-- A condition that only the row under one key meets selects that row. -/
theorem select_eq_singleton {table : Table key} {keep : ρ → Bool} {k : κ} {row : ρ}
    (found : table.find? k = some row) (kept : keep row = true)
    (only : ∀ other ∈ table, keep other = true → key other = k) : table.select keep = [row] := by
  apply List.perm_singleton.mp
  apply (List.perm_ext_iff_of_nodup (nodup_select table keep) (List.nodup_singleton row)).mpr
  intro other
  rw [mem_select_iff, List.mem_singleton]
  constructor
  · rintro ⟨otherMem, otherKept⟩
    have same : key other = key row := (only other otherMem otherKept).trans (find?_key found).symm
    exact eq_of_mem_of_key_eq otherMem (mem_of_find? found) same
  · rintro rfl
    exact ⟨mem_of_find? found, kept⟩

/-- Whether a key is present. -/
def contains (table : Table key) (k : κ) : Bool :=
  (table.find? k).isSome

theorem contains_eq_true_iff {table : Table key} {k : κ} :
    table.contains k = true ↔ ∃ row ∈ table, key row = k := by
  simp [contains, Option.isSome_iff_exists, find?_eq_some_iff]

theorem contains_eq_false_iff {table : Table key} {k : κ} :
    table.contains k = false ↔ ∀ row ∈ table, key row ≠ k := by
  rw [← find?_eq_none_iff]
  simp [contains]

@[simp]
theorem find?_deleteWhere {table : Table key} {drop : ρ → Bool} {k : κ} :
    (table.deleteWhere drop).find? k = (table.find? k).filter fun row => !drop row := by
  ext row
  simp only [find?_eq_some_iff, mem_deleteWhere_iff, Option.filter_eq_some_iff]
  constructor
  · rintro ⟨⟨rowMem, kept⟩, keyEq⟩
    exact ⟨⟨rowMem, keyEq⟩, by simp [kept]⟩
  · rintro ⟨⟨rowMem, keyEq⟩, kept⟩
    exact ⟨⟨rowMem, by simpa using kept⟩, keyEq⟩

@[simp]
theorem find?_updateWhere {table : Table key} {hit : ρ → Bool} {change : ρ → ρ}
    {keepsKey : ∀ row, key (change row) = key row} {k : κ} :
    (table.updateWhere hit change keepsKey).find? k =
      (table.find? k).map fun row => if hit row then change row else row := by
  have rewrittenKey : ∀ row, key (if hit row then change row else row) = key row := by
    intro row
    split
    · exact keepsKey row
    · rfl
  ext row
  simp only [find?_eq_some_iff, mem_updateWhere_iff, Option.map_eq_some_iff]
  constructor
  · rintro ⟨⟨old, oldMem, rfl⟩, keyEq⟩
    exact ⟨old, ⟨oldMem, (rewrittenKey old).symm.trans keyEq⟩, rfl⟩
  · rintro ⟨old, ⟨oldMem, keyEq⟩, rfl⟩
    exact ⟨⟨old, oldMem, rfl⟩, (rewrittenKey old).trans keyEq⟩

/-- Delete the row under a key. -/
def delete (table : Table key) (k : κ) : Table key :=
  table.deleteWhere fun row => key row = k

/-- Rewrite the row under a key. -/
def update (table : Table key) (k : κ) (change : ρ → ρ)
    (keepsKey : ∀ row, key (change row) = key row := by intro _; rfl) : Table key :=
  table.updateWhere (fun row => key row = k) change keepsKey

theorem find?_delete {table : Table key} {k other : κ} :
    (table.delete k).find? other = if other = k then none else table.find? other := by
  simp only [delete, find?_deleteWhere]
  cases found : table.find? other with
  | none => simp
  | some row =>
      have keyEq := find?_key found
      subst keyEq
      by_cases equal : key row = k <;> simp [equal, Option.filter]

theorem delete_eq_self {table : Table key} {k : κ} (absent : table.find? k = none) :
    table.delete k = table := by
  have rowsKept : (table.delete k).rows = table.rows := by
    apply List.filter_eq_self.mpr
    intro row rowMem
    simpa using find?_eq_none_iff.mp absent row rowMem
  cases table
  simpa [delete, deleteWhere] using rowsKept

theorem contains_delete {table : Table key} {k other : κ} :
    (table.delete k).contains other = (decide (other ≠ k) && table.contains other) := by
  by_cases equal : other = k <;> simp [contains, find?_delete, equal]

theorem find?_update {table : Table key} {k other : κ} {change : ρ → ρ}
    {keepsKey : ∀ row, key (change row) = key row} :
    (table.update k change keepsKey).find? other =
      if other = k then (table.find? other).map change else table.find? other := by
  simp only [update, find?_updateWhere]
  cases found : table.find? other with
  | none => simp
  | some row =>
      have keyEq := find?_key found
      subst keyEq
      by_cases equal : key row = k <;> simp [equal]

theorem update_eq_self {table : Table key} {k : κ} {change : ρ → ρ}
    {keepsKey : ∀ row, key (change row) = key row} (absent : table.find? k = none) :
    table.update k change keepsKey = table := by
  have rowsKept : (table.update k change keepsKey).rows = table.rows := by
    conv_rhs => rw [← List.map_id table.rows]
    apply List.map_congr_left
    intro row rowMem
    simp [find?_eq_none_iff.mp absent row rowMem]
  cases table
  simpa [update, updateWhere] using rowsKept

/-- Append a row whose key is absent; a present key fails. -/
def insert? (table : Table key) (row : ρ) : Option (Table key) :=
  if absent : table.contains (key row) = false then
    some ⟨table.rows ++ [row], by
      rw [List.map_append, List.nodup_append]
      refine ⟨table.nodup, by simp, ?_⟩
      intro k kMem other otherMem equal
      rcases List.mem_map.mp kMem with ⟨old, oldMem, rfl⟩
      have otherEq : other = key row := by simpa using otherMem
      exact contains_eq_false_iff.mp absent old oldMem (equal.trans otherEq)⟩
  else
    none

theorem insert?_eq_some_iff {table next : Table key} {row : ρ} :
    table.insert? row = some next ↔
      table.contains (key row) = false ∧ next.rows = table.rows ++ [row] := by
  unfold insert?
  split
  · rename_i absent
    constructor
    · intro inserted
      cases inserted
      exact ⟨absent, rfl⟩
    · rintro ⟨_, rowsEq⟩
      cases next
      simp_all
  · rename_i present
    simp [present]

theorem find?_insert? {table next : Table key} {row : ρ} {k : κ}
    (inserted : table.insert? row = some next) :
    next.find? k = if k = key row then some row else table.find? k := by
  rcases insert?_eq_some_iff.mp inserted with ⟨absent, rowsEq⟩
  simp only [find?, rowsEq, List.find?_append]
  by_cases equal : k = key row
  · subst equal
    have missing : table.rows.find? (fun old => decide (key old = key row)) = none :=
      find?_eq_none_iff.mpr (contains_eq_false_iff.mp absent)
    simp [missing]
  · have unequal : ¬ key row = k := fun keyEq => equal keyEq.symm
    simp [equal, unequal]

theorem contains_insert? {table next : Table key} {row : ρ} {k : κ}
    (inserted : table.insert? row = some next) :
    next.contains k = (decide (k = key row) || table.contains k) := by
  by_cases equal : k = key row <;> simp [contains, find?_insert? inserted, equal]

/-- Deleting a row that was just inserted restores the table. -/
theorem delete_insert? {table next : Table key} {row : ρ}
    (inserted : table.insert? row = some next) : next.delete (key row) = table := by
  rcases insert?_eq_some_iff.mp inserted with ⟨absent, rowsEq⟩
  have others : table.rows.filter (fun other => !decide (key other = key row)) = table.rows := by
    apply List.filter_eq_self.mpr
    intro other otherMem
    simpa using contains_eq_false_iff.mp absent other otherMem
  apply ext_rows
  simp [delete, deleteWhere, rowsEq, others]

theorem contains_updateWhere {table : Table key} {hit : ρ → Bool} {change : ρ → ρ}
    {keepsKey : ∀ row, key (change row) = key row} {k : κ} :
    (table.updateWhere hit change keepsKey).contains k = table.contains k := by
  simp [contains]

theorem mem_insert?_iff {table next : Table key} {row other : ρ}
    (inserted : table.insert? row = some next) :
    other ∈ next ↔ other ∈ table ∨ other = row := by
  rcases insert?_eq_some_iff.mp inserted with ⟨_, rowsEq⟩
  simp [mem_def, rowsEq]

theorem select_insert? {table next : Table key} {row : ρ} {keep : ρ → Bool}
    (inserted : table.insert? row = some next) :
    next.select keep = table.select keep ++ if keep row then [row] else [] := by
  rcases insert?_eq_some_iff.mp inserted with ⟨_, rowsEq⟩
  simp [select, rowsEq, List.filter_append, List.filter_cons]

/-- Insert a row, or do nothing when its key is present. -/
def insertOrIgnore (table : Table key) (row : ρ) : Table key :=
  (table.insert? row).getD table

theorem insertOrIgnore_cases (table : Table key) (row : ρ) :
    (table.insert? row = some (table.insertOrIgnore row)) ∨
      (table.contains (key row) = true ∧ table.insertOrIgnore row = table) := by
  unfold insertOrIgnore insert?
  split
  · exact Or.inl rfl
  · rename_i present
    exact Or.inr ⟨by simpa using present, rfl⟩

theorem mem_insertOrIgnore_iff {table : Table key} {row other : ρ} :
    other ∈ table.insertOrIgnore row ↔
      other ∈ table ∨ (table.contains (key row) = false ∧ other = row) := by
  rcases insertOrIgnore_cases table row with inserted | ⟨present, unchanged⟩
  · have absent := (insert?_eq_some_iff.mp inserted).1
    simp [mem_insert?_iff inserted, absent]
  · simp [unchanged, present]

theorem select_insertOrIgnore_of_not {table : Table key} {row : ρ} {keep : ρ → Bool}
    (outside : keep row = false) :
    (table.insertOrIgnore row).select keep = table.select keep := by
  rcases insertOrIgnore_cases table row with inserted | ⟨_, unchanged⟩
  · simp [select_insert? inserted, outside]
  · rw [unchanged]

theorem find?_insertOrIgnore_of_absent {table : Table key} {row : ρ} {k : κ}
    (absent : table.contains (key row) = false) :
    (table.insertOrIgnore row).find? k = if k = key row then some row else table.find? k := by
  rcases insertOrIgnore_cases table row with inserted | ⟨present, _⟩
  · exact find?_insert? inserted
  · rw [absent] at present
    cases present

theorem find?_insertOrIgnore_of_ne {table : Table key} {row : ρ} {k : κ}
    (different : k ≠ key row) : (table.insertOrIgnore row).find? k = table.find? k := by
  rcases insertOrIgnore_cases table row with inserted | ⟨_, unchanged⟩
  · rw [find?_insert? inserted, if_neg different]
  · rw [unchanged]

/-- Insert a row, or replace the row that holds its key. -/
def upsert (table : Table key) (row : ρ) : Table key :=
  match table.insert? row with
  | some next => next
  | none => table.updateWhere (fun old => key old = key row)
      (fun old => if key old = key row then row else old) (by
        intro old
        split
        · rename_i equal
          exact equal.symm
        · rfl)

theorem find?_upsert {table : Table key} {row : ρ} {k : κ} :
    (table.upsert row).find? k = if k = key row then some row else table.find? k := by
  unfold upsert
  cases inserted : table.insert? row with
  | some next => exact find?_insert? inserted
  | none =>
      have present : table.contains (key row) = true := by
        unfold insert? at inserted
        split at inserted
        · cases inserted
        · rename_i present
          simpa using present
      rw [find?_updateWhere]
      by_cases equal : k = key row
      · subst equal
        rcases contains_eq_true_iff.mp present with ⟨old, oldMem, oldKey⟩
        have found : table.find? (key row) = some old :=
          find?_eq_some_iff.mpr ⟨oldMem, oldKey⟩
        simp [found, oldKey]
      · cases found : table.find? k with
        | none => simp [equal]
        | some old =>
            have oldKey := find?_key found
            have unequal : ¬ key old = key row := fun keyEq => equal (oldKey.symm.trans keyEq)
            simp [equal, unequal]

end Lookup

/-! ## Joins -/

section Joins

variable {μ : Type v} {α : Type u} [DecidableEq α]

/-- The inner join of a list of rows with the rows of a table. -/
def join (left : List μ) (right : List ρ) (leftKey : μ → α) (rightKey : ρ → α) : List (μ × ρ) :=
  left.flatMap fun row =>
    (right.filter fun other => decide (rightKey other = leftKey row)).map fun other => (row, other)

theorem mem_join_iff {left : List μ} {right : List ρ} {leftKey : μ → α} {rightKey : ρ → α}
    {pair : μ × ρ} :
    pair ∈ join left right leftKey rightKey ↔
      pair.1 ∈ left ∧ pair.2 ∈ right ∧ rightKey pair.2 = leftKey pair.1 := by
  obtain ⟨first, second⟩ := pair
  simp only [join, List.mem_flatMap, List.mem_map, List.mem_filter, decide_eq_true_eq,
    Prod.mk.injEq]
  constructor
  · rintro ⟨row, rowMem, other, ⟨otherMem, keyEq⟩, rfl, rfl⟩
    exact ⟨rowMem, otherMem, keyEq⟩
  · rintro ⟨firstMem, secondMem, keyEq⟩
    exact ⟨first, firstMem, second, ⟨secondMem, keyEq⟩, rfl, rfl⟩

theorem join_map_left {ν : Type v} (view : ν → μ) {left : List ν} {right : List ρ}
    {leftKey : μ → α} {rightKey : ρ → α} :
    join (left.map view) right leftKey rightKey =
      (join left right (fun row => leftKey (view row)) rightKey).map fun pair =>
        (view pair.1, pair.2) := by
  simp only [join, List.flatMap_map, List.map_flatMap, List.map_map]
  rfl

/-- A join in which every row has exactly one partner. -/
theorem join_eq_map {left : List μ} {right : List ρ} {leftKey : μ → α} {rightKey : ρ → α}
    (unique : (right.map rightKey).Nodup) {partner : μ → ρ}
    (partnered : ∀ row ∈ left, partner row ∈ right ∧ rightKey (partner row) = leftKey row) :
    join left right leftKey rightKey = left.map fun row => (row, partner row) := by
  have one : ∀ row ∈ left,
      right.filter (fun other => decide (rightKey other = leftKey row)) = [partner row] := by
    intro row rowMem
    obtain ⟨otherMem, keyEq⟩ := partnered row rowMem
    have rightNodup : right.Nodup := unique.of_map rightKey
    apply List.perm_singleton.mp
    rw [List.perm_ext_iff_of_nodup (rightNodup.filter _) (List.nodup_singleton (partner row))]
    intro candidate
    simp only [List.mem_filter, decide_eq_true_eq, List.mem_singleton]
    constructor
    · rintro ⟨candidateMem, candidateKey⟩
      exact List.inj_on_of_nodup_map unique candidateMem otherMem (candidateKey.trans keyEq.symm)
    · rintro rfl
      exact ⟨otherMem, keyEq⟩
  rw [join, List.map_eq_flatMap]
  exact List.flatMap_congr fun row rowMem => by rw [one row rowMem]; rfl

omit [DecidableEq α] in
/-- Partners can be named. -/
theorem exists_partner {left : List μ} {right : List ρ} {leftKey : μ → α} {rightKey : ρ → α}
    (partnered : ∀ row ∈ left, ∃ other ∈ right, rightKey other = leftKey row) :
    left = [] ∨ ∃ partner : μ → ρ,
      ∀ row ∈ left, partner row ∈ right ∧ rightKey (partner row) = leftKey row := by
  cases left with
  | nil => exact Or.inl rfl
  | cons first rest =>
      classical
      obtain ⟨other, _⟩ := partnered first List.mem_cons_self
      have : Nonempty ρ := ⟨other⟩
      choose! partner partnerOk using partnered
      exact Or.inr ⟨partner, partnerOk⟩

/-- A join in which every row has exactly one partner has as many rows. -/
theorem length_join {left : List μ} {right : List ρ} {leftKey : μ → α} {rightKey : ρ → α}
    (unique : (right.map rightKey).Nodup)
    (partnered : ∀ row ∈ left, ∃ other ∈ right, rightKey other = leftKey row) :
    (join left right leftKey rightKey).length = left.length := by
  rcases exists_partner partnered with rfl | ⟨partner, partnerOk⟩
  · rfl
  · rw [join_eq_map unique partnerOk, List.length_map]

end Joins

end Table

end Relational
