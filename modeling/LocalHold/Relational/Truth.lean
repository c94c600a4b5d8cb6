import Mathlib.Data.Option.Basic
import Mathlib.Data.List.Basic

/-!
# Three-valued conditions

A comparison with a missing value is neither true nor false, and a `WHERE`
clause accepts a row only when its condition is true.  Conjunction and
disjunction of accepted conditions are those of the accepting tests, so a
condition without negation may be read off as a plain test.
-/

namespace Relational

universe u

variable {α : Type u}

/-- The truth of a condition; nothing when it is unknown. -/
abbrev Truth := Option Bool

namespace Truth

/-- `AND`. -/
def conj : Truth → Truth → Truth
  | some false, _ => some false
  | _, some false => some false
  | some true, some true => some true
  | _, _ => none

/-- `OR`. -/
def disj : Truth → Truth → Truth
  | some true, _ => some true
  | _, some true => some true
  | some false, some false => some false
  | _, _ => none

/-- `=`, unknown when a side is missing. -/
def equals [DecidableEq α] (left right : Option α) : Truth :=
  left.bind fun first => right.map fun second => decide (first = second)

/-- `<`, unknown when a side is missing. -/
def less [LT α] [DecidableLT α] (left right : Option α) : Truth :=
  left.bind fun first => right.map fun second => decide (first < second)

/-- `<=`, unknown when a side is missing. -/
def atMost [LE α] [DecidableLE α] (left right : Option α) : Truth :=
  left.bind fun first => right.map fun second => decide (first ≤ second)

/-- `IN` a list of given values, unknown when the value is missing. -/
def isIn [DecidableEq α] (value : Option α) (values : List α) : Truth :=
  value.map fun present => decide (present ∈ values)

/-- `IS NULL`. -/
def isNull (value : Option α) : Truth :=
  some value.isNone

/-- Conditions joined by `AND`. -/
def allOf (conditions : List Truth) : Truth :=
  conditions.foldr conj (some true)

/-- Whether a `WHERE` clause accepts. -/
def accepts (truth : Truth) : Bool :=
  truth.getD false

/-- `EXISTS (SELECT 1 FROM rows WHERE condition)`. -/
def someRow (rows : List α) (condition : α → Truth) : Truth :=
  some (rows.any fun row => (condition row).accepts)

@[simp]
theorem accepts_conj (first second : Truth) :
    (conj first second).accepts = (first.accepts && second.accepts) := by
  rcases first with _ | _ | _ <;> rcases second with _ | _ | _ <;> rfl

@[simp]
theorem accepts_disj (first second : Truth) :
    (disj first second).accepts = (first.accepts || second.accepts) := by
  rcases first with _ | _ | _ <;> rcases second with _ | _ | _ <;> rfl

@[simp]
theorem accepts_equals_some [DecidableEq α] (left : Option α) (right : α) :
    (equals left (some right)).accepts = decide (left = some right) := by
  cases left with
  | none => rfl
  | some value => simp [equals, accepts]

@[simp]
theorem accepts_some (value : Bool) : accepts (some value) = value :=
  rfl

theorem accepts_allOf (conditions : List Truth) :
    (allOf conditions).accepts = conditions.all accepts := by
  induction conditions with
  | nil => rfl
  | cons condition conditions inductionHypothesis =>
      rw [allOf, List.foldr_cons, accepts_conj, List.all_cons]
      congr 1

@[simp]
theorem accepts_less_some_left [LT α] [DecidableLT α] (left : α) (right : Option α) :
    (less (some left) right).accepts = right.any fun value => decide (left < value) := by
  cases right <;> rfl

@[simp]
theorem accepts_isIn [DecidableEq α] (value : Option α) (values : List α) :
    (isIn value values).accepts = values.any fun wanted => decide (value = some wanted) := by
  cases value with
  | none => simp [isIn, accepts]
  | some present => simp [isIn, accepts, List.any_eq, eq_comm]

@[simp]
theorem accepts_isNull (value : Option α) : (isNull value).accepts = value.isNone :=
  rfl

@[simp]
theorem accepts_someRow (rows : List α) (condition : α → Truth) :
    (someRow rows condition).accepts = rows.any fun row => (condition row).accepts :=
  rfl

end Truth

end Relational
