import LocalHold.Calendar
import LocalHold.Ordered.Decimal
import LocalHold.Validation

/-!
# Stored timestamps

The store keeps timestamps as RFC 3339 text and compares them as text, while the
rest of the program compares instants.  In the years from 0 to 9999 every field
of the text has a fixed width and the fraction ends in a sign that sorts before
the point and the digits, so both orders agree and the text can be read back.
Other years are written with a sign, which no reader of RFC 3339 accepts.
-/

namespace LocalHold

open Decimal

/-! ## Fields of a timestamp -/

/-- The day of an instant, counted from the Unix epoch. -/
def dayOf (instant : Instant) : Int :=
  instant / 1000000000 / 86400

/-- The second of the day of an instant. -/
def secondOfDay (instant : Instant) : Nat :=
  (instant / 1000000000 % 86400).toNat

/-- The nanosecond of the second of an instant. -/
def nanoOfSecond (instant : Instant) : Nat :=
  (instant % 1000000000).toNat

/-- The instant lies in a year that is written with four digits. -/
def FourDigitYear (instant : Instant) : Prop :=
  0 ≤ (civilDate (dayOf instant)).1 ∧ (civilDate (dayOf instant)).1 ≤ 9999

instance (instant : Instant) : Decidable (FourDigitYear instant) :=
  inferInstanceAs (Decidable (_ ∧ _))

theorem instant_eq (instant : Int) :
    instant = (dayOf instant * 86400 + secondOfDay instant) * 1000000000 +
      nanoOfSecond instant := by
  unfold dayOf secondOfDay nanoOfSecond
  omega

theorem secondOfDay_lt (instant : Instant) : secondOfDay instant < 86400 := by
  unfold secondOfDay
  omega

theorem nanoOfSecond_lt (instant : Instant) : nanoOfSecond instant < 1000000000 := by
  unfold nanoOfSecond
  omega

/-- Instants compare by day, then by second, then by nanosecond. -/
theorem instant_lt_iff {first second : Int} :
    first < second ↔ dayOf first < dayOf second ∨ dayOf first = dayOf second ∧
      (secondOfDay first < secondOfDay second ∨ secondOfDay first = secondOfDay second ∧
        nanoOfSecond first < nanoOfSecond second) := by
  have firstEq := instant_eq first
  have secondEq := instant_eq second
  have firstSecond := secondOfDay_lt first
  have secondSecond := secondOfDay_lt second
  have firstNano := nanoOfSecond_lt first
  have secondNano := nanoOfSecond_lt second
  generalize dayOf first = firstDay at *
  generalize dayOf second = secondDay at *
  generalize secondOfDay first = firstOfDay at *
  generalize secondOfDay second = secondOfDay at *
  generalize nanoOfSecond first = firstNanos at *
  generalize nanoOfSecond second = secondNanos at *
  omega

/-! ## Fractions -/

/-- The offset that ends every timestamp. -/
def offsetText : List Char :=
  "+00:00".toList

/-- Groups of three digits down to the last one that is not zero, and the
offset. -/
def fractionTail : Nat → Nat → List Char
  | 0, _ => offsetText
  | groups + 1, value =>
      if value = 0 then offsetText
      else digits 3 (value / 1000 ^ groups) ++ fractionTail groups (value % 1000 ^ groups)

theorem padded_toList {width value : Nat} (positive : 0 < width) (bound : value < 10 ^ width) :
    (padded width value).toList = digits width value := by
  rw [padded, String.toList_ofList, digits_eq_replicate_append positive bound]

theorem fractionText_toList {nanos : Nat} (bound : nanos < 1000000000) :
    (fractionText nanos).toList ++ offsetText =
      if nanos = 0 then offsetText else '.' :: fractionTail 3 nanos := by
  have group : ∀ {width value : Nat}, 0 < width → value < 10 ^ width →
      ("." ++ padded width value).toList = '.' :: digits width value := by
    intro width value positive fits
    rw [String.toList_append, padded_toList positive fits]
    rfl
  by_cases zero : nanos = 0
  · rw [if_pos zero, fractionText, if_pos zero]
    rfl
  · rw [if_neg zero, fractionText, if_neg zero]
    by_cases millis : nanos % 1000000 = 0
    · have none : nanos % 1000 ^ 2 = 0 := millis
      rw [if_pos millis, group (by decide) (by omega)]
      simp only [fractionTail, if_neg zero, none, if_true]
      rfl
    · have some : ¬ nanos % 1000 ^ 2 = 0 := millis
      by_cases micros : nanos % 1000 = 0
      · have none : nanos % 1000 ^ 2 % 1000 ^ 1 = 0 := by omega
        rw [if_neg millis, if_pos micros, group (by decide) (by omega), digits_add 3 3]
        simp only [fractionTail, if_neg zero, if_neg some, none, if_true]
        rw [show nanos / 1000 / 10 ^ 3 = nanos / 1000 ^ 2 by omega,
          show nanos / 1000 % 10 ^ 3 = nanos % 1000 ^ 2 / 1000 ^ 1 by omega]
        simp
      · have rest : ¬ nanos % 1000 ^ 2 % 1000 ^ 1 = 0 := by omega
        rw [if_neg millis, if_neg micros, group (by decide) (by omega), digits_add 3 6,
          digits_add 3 3]
        simp only [fractionTail, if_neg zero, if_neg some, if_neg rest]
        rw [show nanos / 10 ^ 6 = nanos / 1000 ^ 2 by omega,
          show nanos % 10 ^ 6 / 10 ^ 3 = nanos % 1000 ^ 2 / 1000 ^ 1 by omega,
          show nanos % 10 ^ 6 % 10 ^ 3 = nanos % 1000 ^ 2 % 1000 ^ 1 / 1000 ^ 0 by omega]
        simp

/-- The offset sorts before every digit. -/
theorem offsetText_lt_digits (width value : Nat) (rest : List Char) :
    offsetText < digits (width + 1) value ++ rest := by
  obtain ⟨head, tail, digitsEq, least⟩ := exists_digits_eq_cons width value
  rw [digitsEq]
  exact List.cons_lt_cons_iff.mpr (Or.inl (lt_of_lt_of_le (by decide) least))

theorem fractionTail_lt_iff {groups first second : Nat} (firstBound : first < 1000 ^ groups)
    (secondBound : second < 1000 ^ groups) :
    fractionTail groups first < fractionTail groups second ↔ first < second := by
  induction groups generalizing first second with
  | zero =>
      have firstZero : first = 0 := by simpa using firstBound
      have secondZero : second = 0 := by simpa using secondBound
      simp [fractionTail, firstZero, secondZero]
  | succ groups inductionHypothesis =>
      have positive : 0 < 1000 ^ groups := Nat.pow_pos (by decide)
      have firstRest := Nat.mod_lt first positive
      have secondRest := Nat.mod_lt second positive
      have firstGroup : first / 1000 ^ groups < 10 ^ 3 := by
        rw [Nat.div_lt_iff_lt_mul positive]
        rw [Nat.pow_succ'] at firstBound
        exact firstBound
      have secondGroup : second / 1000 ^ groups < 10 ^ 3 := by
        rw [Nat.div_lt_iff_lt_mul positive]
        rw [Nat.pow_succ'] at secondBound
        exact secondBound
      rw [fractionTail, fractionTail]
      by_cases firstZero : first = 0
      · rw [if_pos firstZero]
        by_cases secondZero : second = 0
        · rw [if_pos secondZero, firstZero, secondZero]
          exact iff_of_false (List.lt_irrefl _) (Nat.lt_irrefl 0)
        · rw [if_neg secondZero]
          exact iff_of_true (offsetText_lt_digits 2 _ _) (by omega)
      · rw [if_neg firstZero]
        by_cases secondZero : second = 0
        · rw [if_pos secondZero]
          exact iff_of_false (lt_asymm (offsetText_lt_digits 2 _ _)) (by omega)
        · rw [if_neg secondZero, digits_append_lt_iff firstGroup secondGroup,
            inductionHypothesis firstRest secondRest]
          exact (lt_iff_div_mod (1000 ^ groups)).symm

/-- The fraction and the offset of a timestamp. -/
def fractionSuffix (nanos : Nat) : List Char :=
  if nanos = 0 then offsetText else '.' :: fractionTail 3 nanos

theorem fractionSuffix_lt_iff {first second : Nat} (firstBound : first < 1000000000)
    (secondBound : second < 1000000000) :
    fractionSuffix first < fractionSuffix second ↔ first < second := by
  unfold fractionSuffix
  by_cases firstZero : first = 0
  · rw [if_pos firstZero]
    by_cases secondZero : second = 0
    · rw [if_pos secondZero, firstZero, secondZero]
      exact iff_of_false (List.lt_irrefl _) (Nat.lt_irrefl 0)
    · rw [if_neg secondZero]
      exact iff_of_true (List.cons_lt_cons_iff.mpr (Or.inl (by decide))) (by omega)
  · rw [if_neg firstZero]
    by_cases secondZero : second = 0
    · rw [if_pos secondZero]
      have sign : offsetText < '.' :: fractionTail 3 first :=
        List.cons_lt_cons_iff.mpr (Or.inl (by decide))
      exact iff_of_false (lt_asymm sign) (by omega)
    · rw [if_neg secondZero, List.cons_lt_cons_self]
      exact fractionTail_lt_iff firstBound secondBound

/-! ## The order of timestamps -/

/-- A timestamp whose fields have a fixed width, followed by more text. -/
def fieldsText (year month day hour minute second : Nat) (rest : List Char) : List Char :=
  digits 4 year ++ '-' :: (digits 2 month ++ '-' :: (digits 2 day ++ 'T' :: (digits 2 hour ++
    ':' :: (digits 2 minute ++ ':' :: (digits 2 second ++ rest)))))

/-- The text of an instant in a four-digit year. -/
theorem rfc3339_toList {instant : Instant} (fourDigit : FourDigitYear instant) :
    (rfc3339 instant).toList =
      fieldsText (civilDate (dayOf instant)).1.toNat (civilDate (dayOf instant)).2.1
        (civilDate (dayOf instant)).2.2 (secondOfDay instant / 3600)
        (secondOfDay instant / 60 % 60) (secondOfDay instant % 60)
        (fractionSuffix (nanoOfSecond instant)) := by
  obtain ⟨low, high⟩ := fourDigit
  obtain ⟨monthBound, dayBound⟩ := civilDate_bounds (dayOf instant)
  have clock := secondOfDay_lt instant
  have fraction := fractionText_toList (nanoOfSecond_lt instant)
  have yearEq : (yearText (civilDate (dayOf instant)).1).toList =
      digits 4 (civilDate (dayOf instant)).1.toNat := by
    rw [yearText, if_pos ⟨low, high⟩]
    exact padded_toList (by decide) (by omega)
  have text : rfc3339 instant = yearText (civilDate (dayOf instant)).1 ++ "-" ++
      padded 2 (civilDate (dayOf instant)).2.1 ++ "-" ++
      padded 2 (civilDate (dayOf instant)).2.2 ++ "T" ++
      padded 2 (secondOfDay instant / 3600) ++ ":" ++
      padded 2 (secondOfDay instant / 60 % 60) ++ ":" ++ padded 2 (secondOfDay instant % 60) ++
      fractionText (nanoOfSecond instant) ++ "+00:00" := rfl
  rw [text]
  simp only [String.toList_append, yearEq,
    padded_toList (by decide : 0 < 2) (show _ < 10 ^ 2 from monthBound),
    padded_toList (by decide : 0 < 2) (show _ < 10 ^ 2 from dayBound),
    padded_toList (by decide : 0 < 2) (show secondOfDay instant / 3600 < 10 ^ 2 by omega),
    padded_toList (by decide : 0 < 2) (show secondOfDay instant / 60 % 60 < 10 ^ 2 by omega),
    padded_toList (by decide : 0 < 2) (show secondOfDay instant % 60 < 10 ^ 2 by omega)]
  rw [List.append_assoc _ (fractionText _).toList]
  rw [show "+00:00".toList = offsetText from rfl, fraction, fieldsText, fractionSuffix]
  simp

/-- Seconds of a day compare by hour, then by minute, then by second. -/
theorem second_lt_iff (first second : Nat) :
    first < second ↔ first / 3600 < second / 3600 ∨ first / 3600 = second / 3600 ∧
      (first / 60 % 60 < second / 60 % 60 ∨ first / 60 % 60 = second / 60 % 60 ∧
        first % 60 < second % 60) := by
  omega

theorem second_eq_iff (first second : Nat) :
    first = second ↔ first / 3600 = second / 3600 ∧ first / 60 % 60 = second / 60 % 60 ∧
      first % 60 = second % 60 := by
  omega

/-- Three fields that are compared one after the other are one field. -/
theorem three_fields_iff {lessA sameA lessB sameB lessC sameC rest : Prop} :
    (lessA ∨ sameA ∧ (lessB ∨ sameB ∧ (lessC ∨ sameC ∧ rest))) ↔
      (lessA ∨ sameA ∧ (lessB ∨ sameB ∧ lessC)) ∨ (sameA ∧ sameB ∧ sameC) ∧ rest := by
  tauto

/-- In four-digit years the text order is the order of time. -/
theorem rfc3339_lt_iff {first second : Instant} (firstYear : FourDigitYear first)
    (secondYear : FourDigitYear second) : rfc3339 first < rfc3339 second ↔ first < second := by
  obtain ⟨firstMonth, firstDay⟩ := civilDate_bounds (dayOf first)
  obtain ⟨secondMonth, secondDay⟩ := civilDate_bounds (dayOf second)
  have firstClock := secondOfDay_lt first
  have secondClock := secondOfDay_lt second
  rw [String.lt_iff_toList_lt, rfc3339_toList firstYear, rfc3339_toList secondYear, fieldsText,
    fieldsText]
  obtain ⟨firstLow, firstHigh⟩ := firstYear
  obtain ⟨secondLow, secondHigh⟩ := secondYear
  rw [digits_append_lt_iff (by omega) (by omega), List.cons_lt_cons_self,
    digits_append_lt_iff firstMonth secondMonth, List.cons_lt_cons_self,
    digits_append_lt_iff firstDay secondDay, List.cons_lt_cons_self,
    digits_append_lt_iff (by omega) (by omega), List.cons_lt_cons_self,
    digits_append_lt_iff (by omega) (by omega), List.cons_lt_cons_self,
    digits_append_lt_iff (by omega) (by omega),
    fractionSuffix_lt_iff (nanoOfSecond_lt first) (nanoOfSecond_lt second)]
  rw [instant_lt_iff, ← dateBefore_civilDate_iff, civilDate_inj, DateBefore,
    second_lt_iff (secondOfDay first), second_eq_iff (secondOfDay first)]
  have yearLess : (civilDate (dayOf first)).1.toNat < (civilDate (dayOf second)).1.toNat ↔
      (civilDate (dayOf first)).1 < (civilDate (dayOf second)).1 := by omega
  have yearSame : (civilDate (dayOf first)).1.toNat = (civilDate (dayOf second)).1.toNat ↔
      (civilDate (dayOf first)).1 = (civilDate (dayOf second)).1 := by omega
  rw [yearLess, yearSame]
  exact three_fields_iff.trans (or_congr Iff.rfl (and_congr Iff.rfl three_fields_iff))

theorem rfc3339_le_iff {first second : Instant} (firstYear : FourDigitYear first)
    (secondYear : FourDigitYear second) : rfc3339 first ≤ rfc3339 second ↔ first ≤ second := by
  rw [← not_lt, ← not_lt, rfc3339_lt_iff secondYear firstYear]

/-! ## Reading -/

/-- What is relied on of a reader of RFC 3339: a timestamp in UTC is read field
by field, with any fraction of up to nine digits, and a text that does not start
with the digits of a year is refused. -/
structure Rfc3339Reader (parse : String → Option Instant) : Prop where
  whole : ∀ (day : Int) (hour minute second : Nat), 0 ≤ (civilDate day).1 →
    (civilDate day).1 ≤ 9999 → hour < 24 → minute < 60 → second < 60 →
    parse (String.ofList (fieldsText (civilDate day).1.toNat (civilDate day).2.1
        (civilDate day).2.2 hour minute second offsetText)) =
      some ((day * 86400 + (hour * 3600 + minute * 60 + second : Nat)) * 1000000000)
  fraction : ∀ (day : Int) (hour minute second width fraction : Nat), 0 ≤ (civilDate day).1 →
    (civilDate day).1 ≤ 9999 → hour < 24 → minute < 60 → second < 60 →
    0 < width → width ≤ 9 → fraction < 10 ^ width →
    parse (String.ofList (fieldsText (civilDate day).1.toNat (civilDate day).2.1
        (civilDate day).2.2 hour minute second
        ('.' :: (digits width fraction ++ offsetText)))) =
      some ((day * 86400 + (hour * 3600 + minute * 60 + second : Nat)) * 1000000000 +
        (fraction * 10 ^ (9 - width) : Nat))
  refuses : ∀ letter rest, letter.isDigit = false →
    parse (String.ofList (letter :: rest)) = none

/-- A fraction is written with three, six or nine digits. -/
theorem fractionSuffix_eq {nanos : Nat} (bound : nanos < 1000000000) (nonzero : nanos ≠ 0) :
    ∃ width fraction, 0 < width ∧ width ≤ 9 ∧ fraction < 10 ^ width ∧
      fraction * 10 ^ (9 - width) = nanos ∧
      fractionSuffix nanos = '.' :: (digits width fraction ++ offsetText) := by
  have suffix : fractionSuffix nanos = (fractionText nanos).toList ++ offsetText :=
    (fractionText_toList bound).symm
  have group : ∀ {width value : Nat}, 0 < width → value < 10 ^ width →
      ("." ++ padded width value).toList ++ offsetText =
        '.' :: (digits width value ++ offsetText) := by
    intro width value positive fits
    rw [String.toList_append, padded_toList positive fits]
    rfl
  rw [suffix, fractionText, if_neg nonzero]
  by_cases millis : nanos % 1000000 = 0
  · rw [if_pos millis]
    exact ⟨3, nanos / 1000000, by decide, by decide, by omega, by omega,
      group (by decide) (by omega)⟩
  · rw [if_neg millis]
    by_cases micros : nanos % 1000 = 0
    · rw [if_pos micros]
      exact ⟨6, nanos / 1000, by decide, by decide, by omega, by omega,
        group (by decide) (by omega)⟩
    · rw [if_neg micros]
      exact ⟨9, nanos, by decide, by decide, by omega, by omega, group (by decide) (by omega)⟩

theorem Rfc3339Reader.parse_rfc3339 {parse : String → Option Instant}
    (reader : Rfc3339Reader parse) {instant : Int} (fourDigit : FourDigitYear instant) :
    parse (rfc3339 instant) = some instant := by
  have text : rfc3339 instant = String.ofList _ :=
    String.ofList_toList.symm.trans (congrArg String.ofList (rfc3339_toList fourDigit))
  have clock := secondOfDay_lt instant
  have whole := instant_eq instant
  rw [text]
  by_cases zero : nanoOfSecond instant = 0
  · rw [fractionSuffix, if_pos zero, reader.whole (dayOf instant) _ _ _ fourDigit.1 fourDigit.2
      (by omega) (by omega) (by omega)]
    rw [zero] at whole
    congr 1
    omega
  · obtain ⟨width, fraction, positive, most, fits, value, suffix⟩ :=
      fractionSuffix_eq (nanoOfSecond_lt instant) zero
    rw [suffix, reader.fraction (dayOf instant) _ _ _ width fraction fourDigit.1 fourDigit.2
      (by omega) (by omega) (by omega) positive most fits, value]
    congr 1
    omega

/-- A timestamp of another year starts with a sign. -/
theorem rfc3339_signed {instant : Instant} (other : ¬ FourDigitYear instant) :
    ∃ letter rest, (rfc3339 instant).toList = letter :: rest ∧ (letter = '-' ∨ letter = '+') := by
  have signed : ∃ letter rest,
      (yearText (civilDate (dayOf instant)).1).toList = letter :: rest ∧
        (letter = '-' ∨ letter = '+') := by
    rw [FourDigitYear] at other
    rw [yearText, if_neg other]
    split
    · exact ⟨'-', (padded 4 _).toList, by rw [String.toList_append]; rfl, Or.inl rfl⟩
    · exact ⟨'+', (padded 4 _).toList, by rw [String.toList_append]; rfl, Or.inr rfl⟩
  obtain ⟨letter, rest, yearEq, sign⟩ := signed
  have text : ∃ more : String,
      rfc3339 instant = yearText (civilDate (dayOf instant)).1 ++ more := by
    simp only [rfc3339, dayOf, String.append_assoc]
    exact ⟨_, rfl⟩
  obtain ⟨more, textEq⟩ := text
  refine ⟨letter, rest ++ more.toList, ?_, sign⟩
  rw [textEq, String.toList_append, yearEq]
  rfl

theorem Rfc3339Reader.parse_signed {parse : String → Option Instant}
    (reader : Rfc3339Reader parse) {instant : Instant} (other : ¬ FourDigitYear instant) :
    parse (rfc3339 instant) = none := by
  obtain ⟨letter, rest, textEq, sign⟩ := rfc3339_signed other
  rw [← String.ofList_toList (s := rfc3339 instant), textEq]
  refine reader.refuses letter rest ?_
  rcases sign with rfl | rfl <;> rfl

/-! ## Years beyond four digits -/

/-- The instant lies after the last year that is written with four digits. -/
def AfterYear9999 (instant : Instant) : Prop :=
  9999 < (civilDate (dayOf instant)).1

instance (instant : Instant) : Decidable (AfterYear9999 instant) :=
  inferInstanceAs (Decidable (_ < _))

theorem year_le_of_le {first second : Int} (le : first ≤ second) :
    (civilDate (dayOf first)).1 ≤ (civilDate (dayOf second)).1 := by
  by_contra later
  have before : DateBefore (civilDate (dayOf second)) (civilDate (dayOf first)) :=
    Or.inl (Int.not_le.mp later)
  have days := dateBefore_civilDate_iff.mp before
  have less : second < first := instant_lt_iff.mpr (Or.inl days)
  exact Int.not_le.mpr less le

theorem FourDigitYear.not_afterYear9999 {instant : Instant} (fourDigit : FourDigitYear instant) :
    ¬ AfterYear9999 instant :=
  Int.not_lt.mpr fourDigit.2

theorem FourDigitYear.lt_of_afterYear9999 {first second : Instant} (fourDigit : FourDigitYear first)
    (late : AfterYear9999 second) : first < second := by
  by_contra notLess
  have years := year_le_of_le (not_lt.mp notLess)
  exact Int.not_lt.mpr (Int.le_trans years fourDigit.2) late

/-- A sign sorts before every digit. -/
theorem rfc3339_signed_lt {first second : Instant} (other : ¬ FourDigitYear first)
    (fourDigit : FourDigitYear second) : rfc3339 first < rfc3339 second := by
  obtain ⟨letter, rest, textEq, sign⟩ := rfc3339_signed other
  obtain ⟨digit, tail, yearEq, zeroLe⟩ :=
    exists_digits_eq_cons 3 (civilDate (dayOf second)).1.toNat
  have signLt : letter < '0' := by
    rcases sign with rfl | rfl <;> decide
  rw [String.lt_iff_toList_lt, textEq, rfc3339_toList fourDigit, fieldsText, yearEq,
    List.cons_append, List.cons_lt_cons_iff]
  exact Or.inl (lt_of_lt_of_le signLt zeroLe)

theorem lt_or_afterYear9999 {first second : Instant} (other : ¬ FourDigitYear first)
    (fourDigit : FourDigitYear second) : first < second ∨ AfterYear9999 first := by
  by_contra neither
  obtain ⟨notLess, notLate⟩ := not_or.mp neither
  have years := year_le_of_le (not_lt.mp notLess)
  exact other ⟨Int.le_trans fourDigit.1 years, Int.not_lt.mp notLate⟩

/-- Against a timestamp with a four-digit year, a timestamp sorts as it compares
in time, except that one after the year 9999 sorts first. -/
theorem rfc3339_lt_iff_or {first second : Instant} (fourDigit : FourDigitYear second) :
    rfc3339 first < rfc3339 second ↔ first < second ∨ AfterYear9999 first := by
  by_cases firstYear : FourDigitYear first
  · rw [rfc3339_lt_iff firstYear fourDigit, or_iff_left firstYear.not_afterYear9999]
  · exact iff_of_true (rfc3339_signed_lt firstYear fourDigit)
      (lt_or_afterYear9999 firstYear fourDigit)

theorem rfc3339_le_iff_or {first second : Instant} (fourDigit : FourDigitYear second) :
    rfc3339 first ≤ rfc3339 second ↔ first ≤ second ∨ AfterYear9999 first := by
  by_cases firstYear : FourDigitYear first
  · rw [rfc3339_le_iff firstYear fourDigit, or_iff_left firstYear.not_afterYear9999]
  · exact iff_of_true (rfc3339_signed_lt firstYear fourDigit).le
      ((lt_or_afterYear9999 firstYear fourDigit).imp_left le_of_lt)

/-! ## Agreement of text and time -/

/-- Two stored timestamps compare as text as they compare in time, and both are
read back unchanged. -/
structure TextAgrees (parse : String → Option Instant) (first second : Instant) : Prop where
  less : rfc3339 first < rfc3339 second ↔ first < second
  atMost : rfc3339 first ≤ rfc3339 second ↔ first ≤ second
  readFirst : parse (rfc3339 first) = some first
  readSecond : parse (rfc3339 second) = some second

theorem Rfc3339Reader.textAgrees_iff {parse : String → Option Instant}
    (reader : Rfc3339Reader parse) (first second : Instant) :
    TextAgrees parse first second ↔ FourDigitYear first ∧ FourDigitYear second := by
  constructor
  · intro agrees
    constructor
    · by_contra other
      have unread := agrees.readFirst
      rw [reader.parse_signed other] at unread
      cases unread
    · by_contra other
      have unread := agrees.readSecond
      rw [reader.parse_signed other] at unread
      cases unread
  · rintro ⟨firstYear, secondYear⟩
    exact ⟨rfc3339_lt_iff firstYear secondYear, rfc3339_le_iff firstYear secondYear,
      reader.parse_rfc3339 firstYear, reader.parse_rfc3339 secondYear⟩

theorem ttlSecondsToExpiry_eq_ok {ttlSeconds : Nat} {now expiry : Instant}
    (accepted : ttlSecondsToExpiry ttlSeconds now = .ok expiry) :
    expiry = now + ttlSeconds * 1000000000 := by
  unfold ttlSecondsToExpiry at accepted
  split at accepted
  · cases accepted
  · split at accepted
    · cases accepted
    · split at accepted
      · cases accepted
        rfl
      · cases accepted

/-- Stored timestamps agree with time exactly in the years that are written with
four digits, and an accepted lifetime agrees with every other timestamp exactly
when it ends in such a year. -/
theorem timestamps_agree {parse : String → Option Instant} (reader : Rfc3339Reader parse) :
    (∀ first second : Instant,
      TextAgrees parse first second ↔ FourDigitYear first ∧ FourDigitYear second) ∧
    (∀ (ttlSeconds : Nat) (now expiry : Instant),
      ttlSecondsToExpiry ttlSeconds now = .ok expiry → ∀ other : Instant,
        (TextAgrees parse expiry other ↔
          FourDigitYear (now + ttlSeconds * 1000000000) ∧ FourDigitYear other)) := by
  refine ⟨reader.textAgrees_iff, fun ttlSeconds now expiry accepted other => ?_⟩
  rw [reader.textAgrees_iff, ttlSecondsToExpiry_eq_ok accepted]

/-! ## A reader of timestamps in UTC -/

/-- Read a given letter and the two digits that follow it. -/
def readField (letter : Char) : List Char → Option (Nat × List Char)
  | [] => none
  | head :: text => if head = letter then readDigits 2 text else none

theorem readField_digits {value : Nat} (bound : value < 100) (letter : Char)
    (rest : List Char) :
    readField letter (letter :: (digits 2 value ++ rest)) = some (value, rest) := by
  rw [readField, if_pos rfl]
  exact readDigits_digits_append bound rest

/-- Read the nanoseconds of a fraction, if there is one. -/
def readFraction : List Char → Option (Nat × List Char)
  | '.' :: text =>
      let width := (text.takeWhile Char.isDigit).length
      if 0 < width ∧ width ≤ 9 then
        (readDigits width text).map fun read => (read.1 * 10 ^ (9 - width), read.2)
      else
        none
  | text => some (0, text)

/-- The instant of the fields of a timestamp, if they are in range. -/
def instantOfFields (year month day hour minute second nanos : Nat) : Option Instant :=
  if civilDate (daysFromCivil year month day) = (↑year, month, day) ∧ hour < 24 ∧ minute < 60 ∧
      second < 60 then
    some ((daysFromCivil year month day * 86400 +
      (hour * 3600 + minute * 60 + second : Nat)) * 1000000000 + nanos)
  else
    none

/-- Read a timestamp whose offset is zero. -/
def parseUtc (text : String) : Option Instant :=
  (readDigits 4 text.toList).bind fun year =>
    (readField '-' year.2).bind fun month =>
      (readField '-' month.2).bind fun day =>
        (readField 'T' day.2).bind fun hour =>
          (readField ':' hour.2).bind fun minute =>
            (readField ':' minute.2).bind fun second =>
              (readFraction second.2).bind fun nanos =>
                if nanos.2 = offsetText then
                  instantOfFields year.1 month.1 day.1 hour.1 minute.1 second.1 nanos.1
                else
                  none

theorem isDigit_of_mem_digits {width value : Nat} {letter : Char}
    (letterMem : letter ∈ digits width value) : letter.isDigit = true := by
  have all : ∀ digit < 10, (Nat.digitChar digit).isDigit = true := by decide
  induction width generalizing value with
  | zero => exact absurd letterMem List.not_mem_nil
  | succ width inductionHypothesis =>
      rcases List.mem_append.mp letterMem with early | last
      · exact inductionHypothesis early
      · rw [List.mem_singleton.mp last]
        exact all _ (Nat.mod_lt _ (by decide))

theorem readFraction_digits {width fraction : Nat} (positive : 0 < width) (most : width ≤ 9)
    (fits : fraction < 10 ^ width) :
    readFraction ('.' :: (digits width fraction ++ offsetText)) =
      some (fraction * 10 ^ (9 - width), offsetText) := by
  have taken : ((digits width fraction ++ offsetText).takeWhile Char.isDigit).length = width := by
    rw [List.takeWhile_append_of_pos fun _ letterMem => isDigit_of_mem_digits letterMem,
      List.length_append, length_digits]
    rfl
  simp only [readFraction, taken]
  rw [if_pos ⟨positive, most⟩, readDigits_digits_append fits]
  rfl

/-- Reading the fields and then the fraction. -/
theorem parseUtc_fieldsText {day : Int} {hour minute second nanos : Nat} {suffix : List Char}
    (low : 0 ≤ (civilDate day).1) (high : (civilDate day).1 ≤ 9999) (hourBound : hour < 24)
    (minuteBound : minute < 60) (secondBound : second < 60)
    (fraction : readFraction suffix = some (nanos, offsetText)) :
    parseUtc (String.ofList (fieldsText (civilDate day).1.toNat (civilDate day).2.1
        (civilDate day).2.2 hour minute second suffix)) =
      some ((day * 86400 + (hour * 3600 + minute * 60 + second : Nat)) * 1000000000 + nanos) := by
  obtain ⟨monthBound, dayBound⟩ := civilDate_bounds day
  have year : ((civilDate day).1.toNat : Int) = (civilDate day).1 := Int.toNat_of_nonneg low
  rw [parseUtc, fieldsText, String.toList_ofList, readDigits_digits_append (by omega),
    Option.bind_some, readField_digits monthBound, Option.bind_some, readField_digits dayBound,
    Option.bind_some, readField_digits (by omega), Option.bind_some,
    readField_digits (by omega), Option.bind_some, readField_digits (by omega),
    Option.bind_some, fraction, Option.bind_some, if_pos rfl, instantOfFields, year,
    daysFromCivil_civilDate]
  exact if_pos ⟨rfl, hourBound, minuteBound, secondBound⟩

theorem rfc3339Reader_parseUtc : Rfc3339Reader parseUtc where
  whole := by
    intro day hour minute second low high hourBound minuteBound secondBound
    rw [parseUtc_fieldsText low high hourBound minuteBound secondBound rfl, Int.natCast_zero,
      Int.add_zero]
  fraction := by
    intro day hour minute second width fraction low high hourBound minuteBound secondBound
      positive most fits
    exact parseUtc_fieldsText low high hourBound minuteBound secondBound
      (readFraction_digits positive most fits)
  refuses := by
    intro letter rest sign
    have other : digitValue? letter = none := if_neg (by rw [sign]; exact Bool.false_ne_true)
    rw [parseUtc, String.toList_ofList, readDigits_succ_cons_eq_none other]
    rfl

/-- A lifetime of one hour agrees with the time it was set at. -/
theorem timestamps_agree_hour :
    ∃ expiry, ttlSecondsToExpiry 3600 1704164645000000000 = .ok expiry ∧
      TextAgrees parseUtc expiry 1704164645000000000 := by
  refine ⟨1704168245000000000, rfl, ?_⟩
  exact ((timestamps_agree rfc3339Reader_parseUtc).2 3600 1704164645000000000 _ rfl
    1704164645000000000).mpr ⟨by decide, by decide⟩

/-- A lifetime that ends in the year 11530 is accepted, has expired as text when
it is set, and cannot be read back. -/
theorem timestamps_disagree_after_year_9999 :
    ∃ expiry, ttlSecondsToExpiry 300000000000 1704164645000000000 = .ok expiry ∧
      (1704164645000000000 : Instant) < expiry ∧
      rfc3339 expiry ≤ rfc3339 1704164645000000000 ∧
      ∀ parse, Rfc3339Reader parse →
        parse (rfc3339 expiry) = none ∧ ¬ TextAgrees parse expiry 1704164645000000000 := by
  refine ⟨301704164645000000000, rfl, by decide, by decide, fun parse reader => ?_⟩
  have other : ¬ FourDigitYear 301704164645000000000 := by decide
  refine ⟨reader.parse_signed other, fun agrees => other ?_⟩
  exact ((reader.textAgrees_iff _ _).mp agrees).1

end LocalHold
