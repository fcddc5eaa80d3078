import BuildPlan.Calendar
import Mathlib.Algebra.BigOperators.Intervals
import Mathlib.Tactic.IntervalCases

/-!
# The Gregorian calendar by counting days

A year has 365 days, or 366 if it is a leap year. So the days from the start of 1970 to a date are
those of the years and months in between (`Date.dayNumber`). The date that is computed for a day is
the valid date with that number, for all days before and after 1970 (`Date.dayNumber_ofDay`,
`Date.valid_ofDay`).
-/

set_option autoImplicit false
set_option relaxedAutoImplicit false

namespace BuildPlan.Date

/-! ### Years, months and the number of a day -/

/-- Every fourth year is a leap year, but of the full centuries only every fourth. -/
def IsLeapYear (year : Int) : Prop :=
  4 ∣ year ∧ (100 ∣ year → 400 ∣ year)

instance (year : Int) : Decidable (IsLeapYear year) :=
  inferInstanceAs (Decidable (_ ∧ (_ → _)))

/-- The days of a year. -/
def daysOfYear (year : Int) : Int :=
  if IsLeapYear year then 366 else 365

/-- The days of a month of a year. -/
def daysOfMonth (year : Int) (month : Nat) : Nat :=
  if month = 2 then if IsLeapYear year then 29 else 28
  else if month ∈ [4, 6, 9, 11] then 30
  else 31

/-- A date that the calendar has: the month is one of the year, and the day is one of the month. -/
structure Valid (date : Date) : Prop where
  one_le_month : 1 ≤ date.month
  month_le : date.month ≤ 12
  one_le_day : 1 ≤ date.day
  day_le : date.day ≤ daysOfMonth date.year date.month

instance (date : Date) : Decidable date.Valid :=
  decidable_of_iff (1 ≤ date.month ∧ date.month ≤ 12 ∧ 1 ≤ date.day ∧
      date.day ≤ daysOfMonth date.year date.month)
    ⟨fun ⟨hmonth, hmonths, hday, hdays⟩ ↦ ⟨hmonth, hmonths, hday, hdays⟩,
      fun ⟨hmonth, hmonths, hday, hdays⟩ ↦ ⟨hmonth, hmonths, hday, hdays⟩⟩

/-- The days from the start of 1970 to the start of a year: those of the years from 1970 on that
are before it, less those of the years from it on that are before 1970. -/
def daysToYear (year : Int) : Int :=
  ∑ later ∈ Finset.range (year - 1970).toNat, daysOfYear (1970 + later) -
    ∑ later ∈ Finset.range (1970 - year).toNat, daysOfYear (year + later)

/-- The days from the start of a year to the start of one of its months: those of the months from
January on that are before it. -/
def daysToMonth (year : Int) (month : Nat) : Nat :=
  ∑ later ∈ Finset.range (month - 1), daysOfMonth year (1 + later)

/-- The days from the start of 1970 to a date. -/
def dayNumber (date : Date) : Int :=
  daysToYear date.year + daysToMonth date.year date.month + (date.day - 1)

/-! ### The start of a year -/

/-- The days of the years before a year, counted from year 1. -/
def daysBefore (year : Int) : Int :=
  365 * (year - 1) + (year - 1) / 4 - (year - 1) / 100 + (year - 1) / 400

theorem daysOfYear_eq_sub (year : Int) :
    daysOfYear year = daysBefore (year + 1) - daysBefore year := by
  unfold daysOfYear daysBefore IsLeapYear
  split_ifs with hleap <;> omega

/-- The days of consecutive years. -/
theorem sum_daysOfYear (first : Int) (count : Nat) :
    ∑ later ∈ Finset.range count, daysOfYear (first + later) =
      daysBefore (first + count) - daysBefore first := by
  induction count with
  | zero => simp
  | succ count ih =>
    rw [Finset.sum_range_succ, ih, daysOfYear_eq_sub, Int.natCast_succ, Int.add_assoc]
    omega

theorem daysToYear_eq (year : Int) : daysToYear year = daysBefore year - daysBefore 1970 := by
  rw [daysToYear, sum_daysOfYear, sum_daysOfYear]
  rcases Int.le_total 1970 year with h | h
  · have hlater : 1970 + ((year - 1970).toNat : Int) = year := by omega
    have hnone : (1970 - year).toNat = 0 := by omega
    rw [hlater, hnone]
    simp
  · have hlater : year + ((1970 - year).toNat : Int) = 1970 := by omega
    have hnone : (year - 1970).toNat = 0 := by omega
    rw [hlater, hnone]
    simp

/-! ### The months from March on -/

theorem daysToMonth_succ (year : Int) {month : Nat} (h : 1 ≤ month) :
    daysToMonth year (month + 1) = daysToMonth year month + daysOfMonth year month := by
  obtain ⟨later, rfl⟩ := Nat.exists_eq_add_of_le h
  rw [daysToMonth, daysToMonth, Nat.add_sub_cancel, Nat.add_sub_cancel_left, Nat.add_comm 1 later,
    Finset.sum_range_succ, Nat.add_comm 1 later]

/-- The month of the year that has a number in the count from March. -/
def monthOfYear (month : Nat) : Nat :=
  if month < 10 then month + 3 else month - 9

/-- The days of a month in the count from March follow from the linear rule, but for the last one,
which is February. -/
theorem daysBeforeMonth_succ (year : Int) {month : Nat} (h : month < 11) :
    daysBeforeMonth (month + 1) = daysBeforeMonth month + daysOfMonth year (monthOfYear month) := by
  interval_cases month <;> rfl

/-- The months from March to December start as the linear rule says. -/
theorem daysToMonth_add_three (year : Int) {month : Nat} (h : month ≤ 10) :
    daysToMonth year (month + 3) = daysToMonth year 3 + daysBeforeMonth month := by
  induction month with
  | zero => rfl
  | succ month ih =>
    have hmonth : monthOfYear month = month + 3 := if_pos (by omega)
    rw [daysToMonth_succ year (by omega), ih (by omega), daysBeforeMonth_succ year (by omega),
      hmonth, Nat.add_assoc]

theorem daysToMonth_three (year : Int) :
    daysToMonth year 3 = 31 + if IsLeapYear year then 29 else 28 := by
  rw [daysToMonth_succ year (by decide), daysToMonth_succ year (by decide)]
  rfl

/-- The months of a year are as long as the year. -/
theorem daysToMonth_thirteen (year : Int) : daysToMonth year 13 = daysOfYear year := by
  rw [daysToMonth_add_three year (Nat.le_refl _), daysToMonth_three, daysOfYear]
  split_ifs <;> rfl

/-- The date of a day of a month in the count from March, both from zero. -/
def fromMarch (year : Int) (month day : Nat) : Date where
  year := year + if month < 10 then 0 else 1
  month := monthOfYear month
  day := day + 1

theorem ofDay_eq_fromMarch (day : Int) :
    ofDay day =
      let dayOfEra := ((day + epochDay) % daysPerEra).toNat
      let year := yearOfEra dayOfEra
      let dayOfYear := dayOfEra - daysBeforeYear year
      let month := monthFromMarch dayOfYear
      fromMarch (400 * ((day + epochDay) / daysPerEra) + year) month
        (dayOfYear - daysBeforeMonth month) :=
  rfl

/-- The days of a year from March on follow each other without a gap. -/
theorem dayNumber_fromMarch (year : Int) {month : Nat} (day : Nat) (h : month < 12) :
    dayNumber (fromMarch year month day) =
      daysToYear year + daysToMonth year 3 + daysBeforeMonth month + day := by
  by_cases hmonth : month < 10
  · have hstart := daysToMonth_add_three year (Nat.le_of_lt hmonth)
    simp only [dayNumber, fromMarch, monthOfYear, if_pos hmonth, Int.add_zero, hstart]
    omega
  · -- January and February belong to the next year, which starts after the ten months from March on.
    have hlength := daysToMonth_thirteen year
    rw [daysToMonth_add_three year (Nat.le_refl 10)] at hlength
    have hnext : daysToYear (year + 1) = daysToYear year + daysOfYear year := by
      simp only [daysToYear_eq, daysOfYear_eq_sub]
      omega
    have hstart : daysToMonth (year + 1) (month - 9) + daysBeforeMonth 10 =
        daysBeforeMonth month := by
      interval_cases month <;> rfl
    simp only [dayNumber, fromMarch, monthOfYear, if_neg hmonth, hnext]
    omega

/-! ### The date of a day -/

/-- A day of an era lies in one of its years, which is a day longer where the year that ends in it
is a leap year. -/
structure LiesIn (day year : Nat) : Prop where
  year_lt : year < 400
  le_day : daysBeforeYear year ≤ day
  day_le : day ≤ daysBeforeYear year + 365
  leap : day = daysBeforeYear year + 365 → IsLeapYear (year + 1)

/-- The year within a century, the last century of the era apart from its last day. -/
theorem yearOfEra_century {century day : Nat} (hcentury : century < 4) (hday : day < 36524) :
    yearOfEra (36524 * century + day) =
      100 * century + (day - (24 * century + day) / 1460) / 365 := by
  -- A century has 24 days more than 25 cycles of 1460 days.
  have hleap : (36524 * century + day) / 1460 = 25 * century + (24 * century + day) / 1460 := by
    omega
  have hcenturies : (36524 * century + day) / 36524 = century := by omega
  have hera : (36524 * century + day) / 146096 = 0 := by omega
  rw [yearOfEra, hleap, hcenturies, hera]
  omega

theorem liesIn_century {century day : Nat} (hcentury : century < 4) (hday : day < 36524) :
    LiesIn (36524 * century + day) (yearOfEra (36524 * century + day)) := by
  rw [yearOfEra_century hcentury hday]
  generalize hcycles : (24 * century + day) / 1460 = cycles
  generalize hyear : (day - cycles) / 365 = year
  have hyear_lt : year < 100 := by omega
  have hle : 365 * year + year / 4 ≤ day := by omega
  have hlast : day ≤ 365 * year + year / 4 + 365 := by omega
  have hleap : day = 365 * year + year / 4 + 365 → year % 4 = 3 ∧ year ≠ 99 := by omega
  have hfourths : (100 * century + year) / 4 = 25 * century + year / 4 := by omega
  have hcenturies : (100 * century + year) / 100 = century := by omega
  have hbefore : daysBeforeYear (100 * century + year) =
      36524 * century + (365 * year + year / 4) := by
    rw [daysBeforeYear, hfourths, hcenturies]
    omega
  refine ⟨by omega, by omega, by omega, fun hend ↦ ?_⟩
  obtain ⟨hfourth, hlastYear⟩ := hleap (by omega)
  unfold IsLeapYear
  omega

/-- Each day of an era lies in the year that is computed for it. -/
theorem liesIn_yearOfEra {day : Nat} (h : day < daysPerEra) : LiesIn day (yearOfEra day) := by
  unfold daysPerEra at h
  -- The leap day of the last year makes the fourth century longer than the others.
  by_cases hlast : day = 146096
  · subst hlast
    exact ⟨by decide, by decide, by decide, by decide⟩
  · have hcentury : day / 36524 < 4 := by omega
    have hday : day % 36524 < 36524 := Nat.mod_lt _ (by decide)
    rw [← Nat.div_add_mod day 36524]
    exact liesIn_century hcentury hday

theorem isLeapYear_era (era year : Int) : IsLeapYear (400 * era + year) ↔ IsLeapYear year := by
  unfold IsLeapYear
  omega

theorem daysBefore_era (era year : Int) :
    daysBefore (400 * era + year) = daysPerEra * era + daysBefore year := by
  have hfourths : (400 * era + year - 1) / 4 = 100 * era + (year - 1) / 4 := by omega
  have hcenturies : (400 * era + year - 1) / 100 = 4 * era + (year - 1) / 100 := by omega
  have heras : (400 * era + year - 1) / 400 = era + (year - 1) / 400 := by omega
  rw [daysBefore, daysBefore, daysPerEra, hfourths, hcenturies, heras]
  omega

/-- The first of March of a year of an era. -/
theorem daysToYear_era (era : Int) {year : Nat} (h : year < 400) :
    daysToYear (400 * era + year) + daysToMonth (400 * era + year) 3 =
      daysPerEra * era + daysBeforeYear year - epochDay := by
  have hmarch : daysBefore year + (31 + if IsLeapYear year then 29 else 28 : Nat) =
      daysBeforeYear year - 306 := by
    unfold daysBefore daysBeforeYear
    split_ifs with hleap
    · obtain ⟨hfourth, hcentury⟩ := hleap
      omega
    · unfold IsLeapYear at hleap
      omega
  have hepoch : daysBefore 1970 = epochDay - 306 := rfl
  simp only [daysToYear_eq, daysToMonth_three, daysBefore_era, isLeapYear_era]
  omega

/-- The month of a day of the year from March on. -/
theorem monthFromMarch_spec {day : Nat} (h : day ≤ 365) :
    monthFromMarch day < 12 ∧ daysBeforeMonth (monthFromMarch day) ≤ day ∧
      day < daysBeforeMonth (monthFromMarch day + 1) := by
  unfold monthFromMarch daysBeforeMonth
  omega

/-- A day of a year in the count from March is a day of its month. Only in February it matters
whether the year that follows is a leap year. -/
theorem lt_daysOfMonth {year : Int} {month day : Nat} (hmonth : month < 12)
    (hstart : daysBeforeMonth month ≤ day) (hend : day < daysBeforeMonth (month + 1))
    (hday : day ≤ 365) (hleap : day = 365 → IsLeapYear (year + 1)) :
    day - daysBeforeMonth month <
      daysOfMonth (year + if month < 10 then 0 else 1) (monthOfYear month) := by
  by_cases hfebruary : month = 11
  · subst hfebruary
    show day - 337 < if IsLeapYear (year + 1) then 29 else 28
    by_cases hlast : day = 365
    · rw [if_pos (hleap hlast)]
      omega
    · split_ifs <;> omega
  · have hbefore : month < 11 := by omega
    have hlength := daysBeforeMonth_succ (year + if month < 10 then 0 else 1) hbefore
    omega

/-- A day is so many days after the start of an era, of a year and of a month, and its date is that
of this day of the month. -/
theorem exists_fromMarch (day : Int) :
    ∃ (era : Int) (year month dayOfMonth : Nat),
      ofDay day = fromMarch (400 * era + year) month dayOfMonth ∧ year < 400 ∧ month < 12 ∧
      day + epochDay =
        daysPerEra * era + daysBeforeYear year + daysBeforeMonth month + dayOfMonth ∧
      dayOfMonth < daysOfMonth (fromMarch (400 * era + year) month dayOfMonth).year
        (monthOfYear month) := by
  have hera := Int.mul_ediv_add_emod (day + epochDay) daysPerEra
  have hday : ((day + epochDay) % daysPerEra).toNat < daysPerEra := by
    unfold epochDay daysPerEra
    omega
  have hpos : 0 ≤ (day + epochDay) % daysPerEra := Int.emod_nonneg _ (by decide)
  obtain ⟨hyear, hle, hlast, hleap⟩ := liesIn_yearOfEra hday
  have hlength := Nat.sub_le_iff_le_add'.2 hlast
  obtain ⟨hmonth, hstart, hend⟩ := monthFromMarch_spec hlength
  refine ⟨_, _, _, _, ofDay_eq_fromMarch day, hyear, hmonth, by omega, ?_⟩
  refine lt_daysOfMonth hmonth hstart hend hlength fun hfull ↦ ?_
  rw [Int.add_assoc, isLeapYear_era]
  exact hleap (by omega)

/-- The date that is computed for a day is the one with this number. -/
theorem dayNumber_ofDay (day : Int) : dayNumber (ofDay day) = day := by
  obtain ⟨era, year, month, dayOfMonth, hdate, hyear, hmonth, hday, -⟩ := exists_fromMarch day
  rw [hdate, dayNumber_fromMarch _ _ hmonth, daysToYear_era era hyear]
  omega

/-- The date that is computed for a day is one that the calendar has. -/
theorem valid_ofDay (day : Int) : Valid (ofDay day) := by
  obtain ⟨era, year, month, dayOfMonth, hdate, -, hmonth, -, hlength⟩ := exists_fromMarch day
  rw [hdate]
  have hmonths : 1 ≤ monthOfYear month ∧ monthOfYear month ≤ 12 := by
    unfold monthOfYear
    split_ifs <;> omega
  exact ⟨hmonths.1, hmonths.2, Nat.succ_pos _, hlength⟩

end BuildPlan.Date
