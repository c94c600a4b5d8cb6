import Mathlib

/-!
# Decimal numbers of a fixed width

Numbers written with a fixed number of decimal digits compare as text exactly as
they compare as numbers, also when more text follows, and they can be read back.
-/

namespace Decimal

/-- The last digits of a number, most significant first. -/
def digits : Nat → Nat → List Char
  | 0, _ => []
  | width + 1, value => digits width (value / 10) ++ [Nat.digitChar (value % 10)]

@[simp]
theorem length_digits (width value : Nat) : (digits width value).length = width := by
  induction width generalizing value with
  | zero => rfl
  | succ width inductionHypothesis =>
      rw [digits, List.length_append, inductionHypothesis]
      rfl

theorem digits_zero (width : Nat) : digits width 0 = List.replicate width '0' := by
  induction width with
  | zero => rfl
  | succ width inductionHypothesis =>
      rw [digits, Nat.zero_div, inductionHypothesis, List.replicate_succ']
      rfl

/-- The digits of a number that fits are its digits with leading zeros. -/
theorem digits_eq_replicate_append {width value : Nat} (positive : 0 < width)
    (bound : value < 10 ^ width) :
    digits width value =
      List.replicate (width - (Nat.toDigits 10 value).length) '0' ++ Nat.toDigits 10 value := by
  induction width generalizing value with
  | zero => exact absurd positive (Nat.lt_irrefl 0)
  | succ width inductionHypothesis =>
      rw [digits]
      by_cases small : value < 10
      · rw [Nat.toDigits_of_lt_base small, Nat.div_eq_of_lt small, Nat.mod_eq_of_lt small,
          digits_zero]
        rfl
      · have wide : 0 < width := by
          rcases Nat.eq_zero_or_pos width with rfl | wide
          · exact absurd bound small
          · exact wide
        have quotient : value / 10 < 10 ^ width := by
          rw [Nat.pow_succ] at bound
          omega
        rw [inductionHypothesis wide quotient,
          Nat.toDigits_of_base_le (by decide) (Nat.le_of_not_lt small), List.length_append,
          List.append_assoc, List.length_singleton, Nat.add_sub_add_right]

/-- A longer number is its leading digits followed by the others. -/
theorem digits_add (first second value : Nat) :
    digits (first + second) value =
      digits first (value / 10 ^ second) ++ digits second (value % 10 ^ second) := by
  induction second generalizing value with
  | zero => simp [digits]
  | succ second inductionHypothesis =>
      have power : 10 ^ (second + 1) = 10 * 10 ^ second := Nat.pow_succ'
      rw [Nat.add_succ, digits, inductionHypothesis, digits, List.append_assoc, power,
        Nat.div_div_eq_div_mul, Nat.mod_mul_right_div_self, Nat.mod_mul_right_mod]

/-! ## Order -/

/-- Numbers compare by quotient first and by remainder then. -/
theorem lt_iff_div_mod (divisor : Nat) {first second : Nat} :
    first < second ↔ first / divisor < second / divisor ∨
      first / divisor = second / divisor ∧ first % divisor < second % divisor := by
  have firstSplit := Nat.div_add_mod first divisor
  have secondSplit := Nat.div_add_mod second divisor
  rcases Nat.lt_trichotomy (first / divisor) (second / divisor) with less | same | more
  · exact iff_of_true (Nat.lt_of_div_lt_div less) (Or.inl less)
  · rw [same] at firstSplit
    omega
  · have greater := Nat.lt_of_div_lt_div more
    omega

theorem digitChar_lt_iff {first second : Nat} (firstBound : first < 10)
    (secondBound : second < 10) :
    Nat.digitChar first < Nat.digitChar second ↔ first < second := by
  have all : ∀ first < 10, ∀ second < 10,
      (Nat.digitChar first < Nat.digitChar second ↔ first < second) := by decide
  exact all first firstBound second secondBound

theorem digitChar_inj {first second : Nat} (firstBound : first < 10) (secondBound : second < 10) :
    Nat.digitChar first = Nat.digitChar second ↔ first = second := by
  have all : ∀ first < 10, ∀ second < 10,
      (Nat.digitChar first = Nat.digitChar second ↔ first = second) := by decide
  exact all first firstBound second secondBound

/-- Text that starts with a number of fixed width compares by the number first. -/
theorem digits_append_lt_iff {width first second : Nat} (firstBound : first < 10 ^ width)
    (secondBound : second < 10 ^ width) (left right : List Char) :
    digits width first ++ left < digits width second ++ right ↔
      first < second ∨ first = second ∧ left < right := by
  induction width generalizing first second left right with
  | zero =>
      have firstZero : first = 0 := by simpa using firstBound
      have secondZero : second = 0 := by simpa using secondBound
      simp [digits, firstZero, secondZero]
  | succ width inductionHypothesis =>
      rw [Nat.pow_succ] at firstBound secondBound
      rw [digits, digits, List.append_assoc, List.append_assoc,
        inductionHypothesis (by omega) (by omega), List.singleton_append, List.singleton_append,
        List.cons_lt_cons_iff, digitChar_lt_iff (Nat.mod_lt _ (by decide)) (Nat.mod_lt _ (by decide)),
        digitChar_inj (Nat.mod_lt _ (by decide)) (Nat.mod_lt _ (by decide))]
      constructor
      · rintro (quotient | ⟨quotient, remainder | ⟨remainder, rest⟩⟩)
        · exact Or.inl (by omega)
        · exact Or.inl (by omega)
        · exact Or.inr ⟨by omega, rest⟩
      · rintro (less | ⟨rfl, rest⟩)
        · omega
        · exact Or.inr ⟨rfl, Or.inr ⟨rfl, rest⟩⟩

/-- A number starts with a digit. -/
theorem exists_digits_eq_cons (width value : Nat) :
    ∃ head tail, digits (width + 1) value = head :: tail ∧ '0' ≤ head := by
  induction width generalizing value with
  | zero =>
      have all : ∀ digit < 10, '0' ≤ Nat.digitChar digit := by decide
      exact ⟨_, [], rfl, all _ (Nat.mod_lt _ (by decide))⟩
  | succ width inductionHypothesis =>
      obtain ⟨head, tail, digitsEq, least⟩ := inductionHypothesis (value / 10)
      exact ⟨head, tail ++ [Nat.digitChar (value % 10)], by rw [digits, digitsEq]; rfl, least⟩

/-! ## Reading -/

/-- The value of a decimal digit. -/
def digitValue? (letter : Char) : Option Nat :=
  if letter.isDigit then some (letter.toNat - '0'.toNat) else none

theorem digitValue?_digitChar {digit : Nat} (bound : digit < 10) :
    digitValue? (Nat.digitChar digit) = some digit := by
  have all : ∀ digit < 10, digitValue? (Nat.digitChar digit) = some digit := by decide
  exact all digit bound

/-- Read one more digit of a number. -/
def readDigit : Nat × List Char → Option (Nat × List Char)
  | (_, []) => none
  | (value, letter :: rest) => (digitValue? letter).map fun digit => (10 * value + digit, rest)

/-- Read a number of a fixed width; the text that follows is left over. -/
def readDigits : Nat → List Char → Option (Nat × List Char)
  | 0, text => some (0, text)
  | width + 1, text => (readDigits width text).bind readDigit

theorem readDigits_digits_append {width value : Nat} (bound : value < 10 ^ width)
    (rest : List Char) :
    readDigits width (digits width value ++ rest) = some (value, rest) := by
  induction width generalizing value rest with
  | zero =>
      have zero : value = 0 := by simpa using bound
      rw [zero]
      rfl
  | succ width inductionHypothesis =>
      rw [Nat.pow_succ] at bound
      rw [digits, readDigits, List.append_assoc, inductionHypothesis (by omega)]
      simp only [Option.bind_some, List.singleton_append, readDigit]
      rw [digitValue?_digitChar (Nat.mod_lt _ (by decide)), Option.map_some, Nat.div_add_mod]

theorem readDigits_succ_cons_eq_none {letter : Char} (other : digitValue? letter = none)
    (width : Nat) (rest : List Char) : readDigits (width + 1) (letter :: rest) = none := by
  induction width with
  | zero =>
      rw [readDigits, readDigits, Option.bind_some, readDigit, other]
      rfl
  | succ width inductionHypothesis =>
      rw [readDigits, inductionHypothesis]
      rfl

end Decimal
