import Mathlib.Data.List.Sort
import Mathlib.Data.List.Dedup

/-!
# Ordered finite sets

A set is kept as a strictly increasing list, so two sets with the same members
are equal as values.  This is the representation of an ordered tree set whose
iteration order is the order of its elements.
-/

namespace Ordered

universe u

/-- A finite set of ordered elements, stored in increasing order. -/
structure OrdSet (α : Type u) [LinearOrder α] where
  /-- The elements in increasing order. -/
  elems : List α
  /-- The elements increase strictly. -/
  sorted : elems.Pairwise (· < ·)
deriving DecidableEq

namespace OrdSet

variable {α : Type u} [LinearOrder α]

instance : Membership α (OrdSet α) :=
  ⟨fun set element => element ∈ set.elems⟩

instance (set : OrdSet α) (element : α) : Decidable (element ∈ set) :=
  inferInstanceAs (Decidable (element ∈ set.elems))

theorem mem_def {set : OrdSet α} {element : α} : element ∈ set ↔ element ∈ set.elems :=
  Iff.rfl

theorem nodup_elems (set : OrdSet α) : set.elems.Nodup :=
  set.sorted.imp fun less => ne_of_lt less

/-- Sets with the same members are equal. -/
theorem ext_mem {first second : OrdSet α}
    (sameMembers : ∀ element, element ∈ first ↔ element ∈ second) : first = second := by
  rcases first with ⟨firstElems, firstSorted⟩
  rcases second with ⟨secondElems, secondSorted⟩
  have firstNodup : firstElems.Nodup := firstSorted.imp fun less => ne_of_lt less
  have secondNodup : secondElems.Nodup := secondSorted.imp fun less => ne_of_lt less
  have permuted : firstElems.Perm secondElems :=
    (List.perm_ext_iff_of_nodup firstNodup secondNodup).mpr sameMembers
  have equal : firstElems = secondElems :=
    permuted.eq_of_pairwise' firstSorted secondSorted
  subst equal
  rfl

/-- Collect a list into a set. -/
def ofList (values : List α) : OrdSet α :=
  ⟨values.dedup.insertionSort (· ≤ ·), by
    have ordered := List.pairwise_insertionSort (· ≤ ·) values.dedup
    have distinct : (values.dedup.insertionSort (· ≤ ·)).Nodup :=
      (List.perm_insertionSort (· ≤ ·) values.dedup).nodup_iff.mpr (List.nodup_dedup values)
    exact List.Pairwise.imp₂ (fun _ _ lessOrEqual different =>
      lt_of_le_of_ne lessOrEqual different) ordered distinct⟩

@[simp]
theorem mem_ofList {values : List α} {element : α} :
    element ∈ ofList values ↔ element ∈ values := by
  simp [mem_def, ofList]

/-- Lists with the same members give the same set. -/
theorem ofList_congr {first second : List α}
    (sameMembers : ∀ element, element ∈ first ↔ element ∈ second) :
    ofList first = ofList second := by
  apply ext_mem
  intro element
  rw [mem_ofList, mem_ofList]
  exact sameMembers element

/-- The common elements of two sets. -/
def inter (first second : OrdSet α) : OrdSet α :=
  ⟨first.elems.filter (· ∈ second), first.sorted.filter _⟩

@[simp]
theorem mem_inter {first second : OrdSet α} {element : α} :
    element ∈ first.inter second ↔ element ∈ first ∧ element ∈ second := by
  simp [mem_def, inter]

end OrdSet

end Ordered
