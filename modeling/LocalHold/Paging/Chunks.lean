import LocalHold.Paging.Scan
import Mathlib.Data.List.Range

/-!
# Chunks

A list is cut into chunks of a fixed size; the last chunk may be shorter.  The
chunks hold the rows of the list, in order.
-/

namespace Paging

universe u

variable {ρ : Type u}

/-- The number of chunks of a list. -/
def chunkCount (size length : Nat) : Nat :=
  (length + size - 1) / size

/-- The chunks of a list. -/
def chunks (size : Nat) (rows : List ρ) : List (List ρ) :=
  (List.range (chunkCount size rows.length)).map fun index => page rows size (index * size)

theorem length_le_chunkCount_mul {size : Nat} (positive : 0 < size) (length : Nat) :
    length ≤ chunkCount size length * size := by
  have remainder := Nat.div_add_mod (length + size - 1) size
  have small := Nat.mod_lt (length + size - 1) positive
  rw [chunkCount, Nat.mul_comm]
  omega

/-- The first pages hold the first rows. -/
theorem flatten_pages (rows : List ρ) (size count : Nat) :
    ((List.range count).map fun index => page rows size (index * size)).flatten =
      rows.take (count * size) := by
  induction count with
  | zero => simp
  | succ count inductionHypothesis =>
      rw [List.range_succ, List.map_append, List.flatten_append, inductionHypothesis,
        Nat.succ_mul, List.take_add]
      simp [page]

/-- No row is lost, repeated or moved. -/
@[simp]
theorem flatten_chunks {size : Nat} (positive : 0 < size) (rows : List ρ) :
    (chunks size rows).flatten = rows := by
  rw [chunks, flatten_pages]
  exact List.take_of_length_le (length_le_chunkCount_mul positive rows.length)

end Paging
