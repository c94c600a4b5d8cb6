import LocalHold.Text

/-!
# Civil dates

A day belongs to an era of 400 years, a year of the era that starts in March, a
month of that year and a day of that month.  The civil date names these in
another way, so that dates are ordered as their days are and a date can be turned
back into its day.
-/

namespace LocalHold

/-! ## Years of an era -/

/-- The days before a year of an era whose years start in March. -/
def daysBeforeYear (year : Nat) : Nat :=
  365 * year + year / 4 - year / 100 + year / 400

/-- The year that contains a day of an era. -/
def yearOfEra (day : Nat) : Nat :=
  (day - day / 1460 + day / 36524 - day / 146096) / 365

/-- A day given by its century, its cycle of four years and its day in the
cycle. -/
theorem yearOfEra_split {century cycle rest : Nat} (centuryBound : century ≤ 3)
    (restBound : rest < 1461) (within : 1461 * cycle + rest < 36524) :
    ∃ year ≤ 3,
      yearOfEra (36524 * century + 1461 * cycle + rest) = 100 * century + 4 * cycle + year ∧
      365 * year ≤ rest ∧ (rest < 365 * (year + 1) ∨ year = 3) := by
  have cycles : (36524 * century + 1461 * cycle + rest) / 1460 =
      25 * century + cycle + (24 * century + cycle + rest) / 1460 := by omega
  have centuries : (36524 * century + 1461 * cycle + rest) / 36524 = century := by omega
  have eras : (36524 * century + 1461 * cycle + rest) / 146096 = 0 := by omega
  have carry : (24 * century + cycle + rest) / 1460 = 0 ∨
      (24 * century + cycle + rest) / 1460 = 1 := by omega
  rw [yearOfEra, cycles, centuries, eras]
  rcases carry with none | one
  · rw [none]
    exact ⟨rest / 365, by omega, by omega, by omega, by omega⟩
  · rw [one]
    exact ⟨(rest - 1) / 365, by omega, by omega, by omega, by omega⟩

/-- The days before a year given by its century and its cycle. -/
theorem daysBeforeYear_split {century cycle year : Nat} (centuryBound : century ≤ 3)
    (cycleBound : cycle ≤ 24) (yearBound : year ≤ 3) :
    daysBeforeYear (100 * century + 4 * cycle + year) =
      36524 * century + 1461 * cycle + 365 * year := by
  unfold daysBeforeYear
  omega

theorem le_daysBeforeYear_split (century : Nat) {cycle year : Nat} (cycleBound : cycle ≤ 24)
    (yearBound : year ≤ 3) :
    36524 * century + 1461 * cycle + 365 * (year + 1) ≤
      daysBeforeYear (100 * century + 4 * cycle + year + 1) := by
  unfold daysBeforeYear
  omega

/-- The last year of a cycle has a leap day, unless it ends a century. -/
theorem lt_daysBeforeYear_cycle {century cycle rest : Nat} (centuryBound : century ≤ 3)
    (cycleBound : cycle ≤ 24) (restBound : rest < 1461) (within : 1461 * cycle + rest < 36524) :
    36524 * century + 1461 * cycle + rest < daysBeforeYear (100 * century + 4 * cycle + 4) := by
  rcases Nat.lt_or_eq_of_le cycleBound with inside | rfl
  · have next := daysBeforeYear_split centuryBound inside (Nat.zero_le 3)
    rw [show 100 * century + 4 * cycle + 4 = 100 * century + 4 * cycle.succ + 0 by omega, next]
    omega
  · unfold daysBeforeYear
    omega

/-- Every day of an era lies in its year. -/
theorem yearOfEra_spec {day : Nat} (bound : day < 146097) :
    yearOfEra day < 400 ∧ daysBeforeYear (yearOfEra day) ≤ day ∧
      day < daysBeforeYear (yearOfEra day + 1) := by
  by_cases last : day = 146096
  · subst last
    decide
  · have dayEq : day =
        36524 * (day / 36524) + 1461 * (day % 36524 / 1461) + day % 36524 % 1461 := by omega
    have centuryBound : day / 36524 ≤ 3 := by omega
    have restBound : day % 36524 % 1461 < 1461 := Nat.mod_lt _ (by decide)
    have within : 1461 * (day % 36524 / 1461) + day % 36524 % 1461 < 36524 := by omega
    generalize day / 36524 = century at *
    generalize day % 36524 / 1461 = cycle at *
    generalize day % 36524 % 1461 = rest at *
    subst dayEq
    have cycleBound : cycle ≤ 24 := by omega
    obtain ⟨year, yearBound, yearEq, lower, upper⟩ :=
      yearOfEra_split centuryBound restBound within
    rw [yearEq, daysBeforeYear_split centuryBound cycleBound yearBound]
    refine ⟨by omega, by omega, ?_⟩
    rcases upper with short | rfl
    · have next := le_daysBeforeYear_split century cycleBound yearBound
      omega
    · exact lt_daysBeforeYear_cycle centuryBound cycleBound restBound within

/-! ## Months of a year -/

/-- The days before a month counted from March. -/
def daysBeforeMonth (month : Nat) : Nat :=
  (153 * month + 2) / 5

/-- The month that contains a day of a year. -/
def monthOfYear (day : Nat) : Nat :=
  (5 * day + 2) / 153

theorem monthOfYear_spec {day : Nat} (bound : day < 366) :
    monthOfYear day < 12 ∧ daysBeforeMonth (monthOfYear day) ≤ day ∧
      day < daysBeforeMonth (monthOfYear day + 1) := by
  unfold monthOfYear daysBeforeMonth
  omega

/-! ## Dates -/

/-- A day as an era, a year of the era, a month counted from March and a day of
the month counted from zero. -/
structure MarchDate where
  era : Int
  year : Nat
  month : Nat
  day : Nat

namespace MarchDate

/-- The day of the era. -/
def dayOfEra (date : MarchDate) : Nat :=
  daysBeforeYear date.year + daysBeforeMonth date.month + date.day

/-- The day counted from the Unix epoch. -/
def epochDay (date : MarchDate) : Int :=
  date.era * 146097 + date.dayOfEra - 719468

/-- The parts are those of a real date. -/
structure Valid (date : MarchDate) : Prop where
  year : date.year < 400
  month : date.month < 12
  withinMonth : daysBeforeMonth date.month + date.day < daysBeforeMonth (date.month + 1)
  withinYear : date.dayOfEra < daysBeforeYear (date.year + 1)

/-- The same date in the civil calendar. -/
def civil (date : MarchDate) : Int × Nat × Nat :=
  (if date.month < 10 then date.era * 400 + date.year else date.era * 400 + date.year + 1,
    if date.month < 10 then date.month + 3 else date.month - 9, date.day + 1)

/-- The parts of a day. -/
def ofEpochDay (day : Int) : MarchDate :=
  let dayOfEra := ((day + 719468) % 146097).toNat
  let year := yearOfEra dayOfEra
  let dayOfYear := dayOfEra - daysBeforeYear year
  let month := monthOfYear dayOfYear
  ⟨(day + 719468) / 146097, year, month, dayOfYear - daysBeforeMonth month⟩

end MarchDate

theorem daysBeforeYear_of_lt {year : Nat} (bound : year < 400) :
    daysBeforeYear year = 365 * year + year / 4 - year / 100 := by
  rw [daysBeforeYear, Nat.div_eq_of_lt bound]
  rfl

theorem daysBeforeYear_succ_le (year : Nat) :
    daysBeforeYear (year + 1) ≤ daysBeforeYear year + 366 := by
  unfold daysBeforeYear
  omega

theorem MarchDate.ofEpochDay_spec (day : Int) :
    (ofEpochDay day).Valid ∧ (ofEpochDay day).epochDay = day := by
  have nonneg := Int.emod_nonneg (day + 719468) (by decide : (146097 : Int) ≠ 0)
  have bound := Int.emod_lt_of_pos (day + 719468) (by decide : (0 : Int) < 146097)
  have division := Int.mul_ediv_add_emod (day + 719468) 146097
  obtain ⟨inEra, inEraEq⟩ := Int.eq_ofNat_of_zero_le nonneg
  have natEq : ((day + 719468) % 146097).toNat = inEra := by omega
  have eraBound : inEra < 146097 := by omega
  obtain ⟨yearBound, yearStart, yearEnd⟩ := yearOfEra_spec eraBound
  have longest := daysBeforeYear_succ_le (yearOfEra inEra)
  have dayBound : inEra - daysBeforeYear (yearOfEra inEra) < 366 := by omega
  obtain ⟨monthBound, monthStart, monthEnd⟩ := monthOfYear_spec dayBound
  simp only [ofEpochDay, natEq, epochDay, dayOfEra]
  refine ⟨⟨yearBound, monthBound, ?_, ?_⟩, ?_⟩
  · dsimp only
    omega
  · rw [dayOfEra]
    dsimp only
    omega
  · omega

/-- The civil date is the date of the day, named in the civil calendar. -/
theorem civilDate_eq (day : Int) : civilDate day = (MarchDate.ofEpochDay day).civil := by
  have nonneg := Int.emod_nonneg (day + 719468) (by decide : (146097 : Int) ≠ 0)
  have bound := Int.emod_lt_of_pos (day + 719468) (by decide : (0 : Int) < 146097)
  have eraBound : ((day + 719468) % 146097).toNat < 146097 := by omega
  have start := daysBeforeYear_of_lt (yearOfEra_spec eraBound).1
  have parts : ∀ date, date = MarchDate.ofEpochDay day → civilDate day =
      (let month := if date.month < 10 then date.month + 3 else date.month - 9
        let year : Int := date.year + date.era * 400
        (if month ≤ 2 then year + 1 else year, month, date.day + 1)) := by
    rintro date rfl
    simp only [MarchDate.ofEpochDay, start]
    rfl
  have monthBound := (MarchDate.ofEpochDay_spec day).1.month
  rw [parts _ rfl, MarchDate.civil]
  by_cases early : (MarchDate.ofEpochDay day).month < 10
  · simp only [early, if_true]
    rw [if_neg (by omega), Int.add_comm]
  · simp only [early, if_false]
    rw [if_pos (by omega), Int.add_comm (MarchDate.ofEpochDay day).year]

/-! ## Order -/

/-- Dates compare by year, then by month, then by day. -/
def DateBefore (first second : Int × Nat × Nat) : Prop :=
  first.1 < second.1 ∨ first.1 = second.1 ∧
    (first.2.1 < second.2.1 ∨ first.2.1 = second.2.1 ∧ first.2.2 < second.2.2)

theorem daysBeforeYear_mono {first second : Nat} (le : first ≤ second) :
    daysBeforeYear first ≤ daysBeforeYear second := by
  induction le with
  | refl => exact Nat.le_refl _
  | @step second _ inductionHypothesis =>
      have next : daysBeforeYear second ≤ daysBeforeYear (second + 1) := by
        unfold daysBeforeYear
        omega
      exact inductionHypothesis.trans next

theorem daysBeforeMonth_mono {first second : Nat} (le : first ≤ second) :
    daysBeforeMonth first ≤ daysBeforeMonth second := by
  unfold daysBeforeMonth
  omega

namespace MarchDate

/-- The civil year and month count the same months as the parts do. -/
theorem civil_months {date : MarchDate} (valid : date.Valid) :
    date.civil.1 * 12 + date.civil.2.1 = (date.era * 400 + date.year) * 12 + date.month + 3 ∧
      1 ≤ date.civil.2.1 ∧ date.civil.2.1 ≤ 12 := by
  have monthBound := valid.month
  simp only [civil]
  split
  · omega
  · omega

theorem dayOfEra_lt {date : MarchDate} (valid : date.Valid) : date.dayOfEra < 146097 := by
  have last := daysBeforeYear_mono (Nat.succ_le_of_lt valid.year)
  exact Nat.lt_of_lt_of_le valid.withinYear last

/-- An earlier civil date is an earlier day. -/
theorem epochDay_lt_of_dateBefore {first second : MarchDate} (firstValid : first.Valid)
    (secondValid : second.Valid) (before : DateBefore first.civil second.civil) :
    first.epochDay < second.epochDay := by
  obtain ⟨firstMonths, firstLow, firstHigh⟩ := civil_months firstValid
  obtain ⟨secondMonths, secondLow, secondHigh⟩ := civil_months secondValid
  have sameDay : first.civil.2.2 < second.civil.2.2 → first.day < second.day :=
    Nat.lt_of_succ_lt_succ
  have order : (first.era * 400 + first.year) * 12 + first.month <
        (second.era * 400 + second.year) * 12 + second.month ∨
      (first.era * 400 + first.year) * 12 + first.month =
        (second.era * 400 + second.year) * 12 + second.month ∧ first.day < second.day := by
    rcases before with year | ⟨year, month | ⟨month, day⟩⟩
    · exact Or.inl (by omega)
    · exact Or.inl (by omega)
    · exact Or.inr ⟨by omega, sameDay day⟩
  have firstYear := firstValid.year
  have firstMonth := firstValid.month
  have secondYear := secondValid.year
  have secondMonth := secondValid.month
  have firstInYear := firstValid.withinYear
  have firstInMonth := firstValid.withinMonth
  have firstInEra := dayOfEra_lt firstValid
  simp only [epochDay]
  rcases order with earlier | ⟨same, day⟩
  · by_cases era : first.era < second.era
    · omega
    · have sameEra : first.era = second.era := by omega
      rw [sameEra] at earlier ⊢
      by_cases year : first.year < second.year
      · have later := daysBeforeYear_mono (Nat.succ_le_of_lt year)
        have start : daysBeforeYear second.year ≤ second.dayOfEra :=
          (Nat.le_add_right _ _).trans (Nat.le_add_right _ _)
        simp only [Nat.succ_eq_add_one] at later
        omega
      · have sameYear : first.year = second.year := by omega
        have month : first.month < second.month := by omega
        have later := daysBeforeMonth_mono (Nat.succ_le_of_lt month)
        simp only [Nat.succ_eq_add_one] at later
        simp only [dayOfEra, sameYear]
        omega
  · have sameEra : first.era = second.era := by omega
    have sameYear : first.year = second.year := by omega
    have sameMonth : first.month = second.month := by omega
    simp only [dayOfEra, sameEra, sameYear, sameMonth]
    omega

end MarchDate

theorem dateBefore_trichotomy (first second : Int × Nat × Nat) :
    DateBefore first second ∨ first = second ∨ DateBefore second first := by
  obtain ⟨firstYear, firstMonth, firstDay⟩ := first
  obtain ⟨secondYear, secondMonth, secondDay⟩ := second
  simp only [DateBefore, Prod.mk.injEq]
  omega

theorem lt_of_dateBefore_civilDate {first second : Int}
    (before : DateBefore (civilDate first) (civilDate second)) : first < second := by
  obtain ⟨firstValid, firstDay⟩ := MarchDate.ofEpochDay_spec first
  obtain ⟨secondValid, secondDay⟩ := MarchDate.ofEpochDay_spec second
  rw [civilDate_eq, civilDate_eq] at before
  rw [← firstDay, ← secondDay]
  exact MarchDate.epochDay_lt_of_dateBefore firstValid secondValid before

/-! ## Days of dates -/

/-- The parts of a civil date. -/
def MarchDate.ofCivil (year : Int) (month day : Nat) : MarchDate :=
  let marchYear := if month ≤ 2 then year - 1 else year
  ⟨marchYear / 400, (marchYear % 400).toNat, if month ≤ 2 then month + 9 else month - 3, day - 1⟩

/-- The day of a civil date, counted from the Unix epoch. -/
def daysFromCivil (year : Int) (month day : Nat) : Int :=
  (MarchDate.ofCivil year month day).epochDay

theorem MarchDate.ofCivil_civil {date : MarchDate} (valid : date.Valid) :
    ofCivil date.civil.1 date.civil.2.1 date.civil.2.2 = date := by
  obtain ⟨era, year, month, day⟩ := date
  have yearBound := valid.year
  have monthBound := valid.month
  dsimp only at yearBound monthBound
  simp only [civil, ofCivil]
  by_cases early : month < 10
  · simp only [early, if_true, if_neg (show ¬ month + 3 ≤ 2 by omega), MarchDate.mk.injEq]
    omega
  · simp only [early, if_false, if_pos (show month - 9 ≤ 2 by omega), MarchDate.mk.injEq]
    omega

/-- A day is the day of its date. -/
theorem daysFromCivil_civilDate (day : Int) :
    daysFromCivil (civilDate day).1 (civilDate day).2.1 (civilDate day).2.2 = day := by
  obtain ⟨valid, epochDay⟩ := MarchDate.ofEpochDay_spec day
  rw [civilDate_eq, daysFromCivil, MarchDate.ofCivil_civil valid, epochDay]

/-- Days are ordered as their dates are. -/
theorem dateBefore_civilDate_iff {first second : Int} :
    DateBefore (civilDate first) (civilDate second) ↔ first < second := by
  constructor
  · exact lt_of_dateBefore_civilDate
  · intro less
    rcases dateBefore_trichotomy (civilDate first) (civilDate second) with before | same | after
    · exact before
    · have back := daysFromCivil_civilDate first
      rw [same, daysFromCivil_civilDate] at back
      exact absurd less (by rw [back]; exact Int.lt_irrefl _)
    · exact absurd less (Int.not_lt.mpr (Int.le_of_lt (lt_of_dateBefore_civilDate after)))

/-- Different days have different dates. -/
theorem civilDate_inj {first second : Int} :
    first = second ↔ (civilDate first).1 = (civilDate second).1 ∧
      (civilDate first).2.1 = (civilDate second).2.1 ∧
      (civilDate first).2.2 = (civilDate second).2.2 := by
  constructor
  · rintro rfl
    exact ⟨rfl, rfl, rfl⟩
  · rintro ⟨year, month, day⟩
    rw [← daysFromCivil_civilDate first, year, month, day, daysFromCivil_civilDate]

/-- Months and days of a date have two digits. -/
theorem civilDate_bounds (day : Int) :
    (civilDate day).2.1 < 100 ∧ (civilDate day).2.2 < 100 := by
  obtain ⟨valid, _⟩ := MarchDate.ofEpochDay_spec day
  obtain ⟨_, _, monthBound⟩ := MarchDate.civil_months valid
  have inMonth := valid.withinMonth
  rw [civilDate_eq]
  refine ⟨Nat.lt_of_le_of_lt monthBound (by decide), ?_⟩
  simp only [MarchDate.civil]
  unfold daysBeforeMonth at inMonth
  omega

end LocalHold
