import Mathlib.Data.Set.Basic
import Mathlib.Data.List.Nodup

/-!
# Names and who answers them

Holders answer names.  A name is unambiguous when at most one holder answers
it.  A holder may take new names without making any name ambiguous as long as
no other holder answers them.
-/

namespace Naming

universe u v

variable {ν : Type u} {ι : Type v}

/-- At most one holder answers a name. -/
def Unambiguous (answers : ν → ι → Prop) (name : ν) : Prop :=
  ∀ first second, answers name first → answers name second → first = second

/-- One holder takes names that no other holder answers; nobody else gains one. -/
structure Takes (before next : ν → ι → Prop) (holder : ι) (names : Set ν) : Prop where
  gained : ∀ name id, next name id → before name id ∨ (id = holder ∧ name ∈ names)
  free : ∀ name ∈ names, ∀ id, before name id → id = holder

variable {before next : ν → ι → Prop} {holder : ι} {names : Set ν}

theorem Takes.unambiguous (takes : Takes before next holder names) {name : ν}
    (unique : Unambiguous before name) : Unambiguous next name := by
  intro first second firstAnswers secondAnswers
  rcases takes.gained name first firstAnswers with firstOld | ⟨firstHolder, taken⟩
  · rcases takes.gained name second secondAnswers with secondOld | ⟨secondHolder, taken⟩
    · exact unique first second firstOld secondOld
    · exact (takes.free name taken first firstOld).trans secondHolder.symm
  · rcases takes.gained name second secondAnswers with secondOld | ⟨secondHolder, _⟩
    · exact firstHolder.trans (takes.free name taken second secondOld).symm
    · exact firstHolder.trans secondHolder.symm

/-- A name that was taken is answered by its new holder alone. -/
theorem Takes.unambiguous_of_mem (takes : Takes before next holder names) {name : ν}
    (taken : name ∈ names) : Unambiguous next name := by
  have only : ∀ id, next name id → id = holder := by
    intro id answered
    rcases takes.gained name id answered with old | ⟨same, _⟩
    · exact takes.free name taken id old
    · exact same
  intro first second firstAnswers secondAnswers
  exact (only first firstAnswers).trans (only second secondAnswers).symm

/-- Losing answers makes no name ambiguous. -/
theorem Unambiguous.mono {name : ν} (unique : Unambiguous before name)
    (fewer : ∀ id, next name id → before name id) : Unambiguous next name :=
  fun first second firstAnswers secondAnswers =>
    unique first second (fewer first firstAnswers) (fewer second secondAnswers)

/-- A list without repetitions has at most one element exactly when its elements
have the same identity, where the identity determines the element. -/
theorem length_le_one_iff {α : Type u} {items : List α} {identity : α → ι} (nodup : items.Nodup)
    (determines : ∀ first ∈ items, ∀ second ∈ items, identity first = identity second →
      first = second) :
    items.length ≤ 1 ↔
      ∀ first ∈ items, ∀ second ∈ items, identity first = identity second := by
  match items, nodup with
  | [], _ => simp
  | [only], _ => simp
  | first :: second :: rest, nodup =>
      constructor
      · intro short
        simp at short
      · intro same
        have distinct : first ≠ second := by
          have absent := (List.nodup_cons.mp nodup).1
          rintro rfl
          exact absent List.mem_cons_self
        exact absurd
          (determines first List.mem_cons_self second (List.mem_cons_of_mem _ List.mem_cons_self)
            (same first List.mem_cons_self second (List.mem_cons_of_mem _ List.mem_cons_self)))
          distinct

end Naming
