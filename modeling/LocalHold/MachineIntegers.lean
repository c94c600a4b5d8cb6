import Mathlib

/-!
# Machine integers

Sizes and offsets are natural numbers.  Where the code saturates, the bounds of
the 64-bit types appear.
-/

namespace LocalHold

/-- The number of `usize` values. -/
def usizeRange : Nat := 2 ^ 64

/-- The number of values that are not negative as `i64`. -/
def i64Range : Nat := 2 ^ 63

/-- A saturating sum. -/
def saturatingAdd (first second : Nat) : Nat :=
  min (first + second) (usizeRange - 1)

/-- A saturating product. -/
def saturatingMul (first second : Nat) : Nat :=
  min (first * second) (usizeRange - 1)

end LocalHold
