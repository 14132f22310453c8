import LogAudit.Time.Instant
import Mathlib.Algebra.BigOperators.Intervals
import Mathlib.Tactic.IntervalCases
import Mathlib.Tactic.Linarith

/-!
# The calendar counts days

The number of a date is the number of days that the calendar counts up to it: month by month and
year by year (`toDays_eq`). The date that is computed from a number is a date of the calendar
(`ofDays_exists`) and has that number (`toDays_ofDays`). Both go through years that begin in March,
since the leap day is the last day of such a year.
-/

namespace LogAudit.Time

open Finset

/-- The length of a year. -/
def yearLength (year : Int) : Nat := if isLeapYear year then 366 else 365

theorem isLeapYear_iff {year : Int} :
    isLeapYear year = true ↔ year % 4 = 0 ∧ (year % 100 ≠ 0 ∨ year % 400 = 0) := by
  simp [isLeapYear]

namespace Date

/-- The calendar has the date. -/
structure Exists (d : Date) : Prop where
  month_pos : 1 ≤ d.month
  month_le : d.month ≤ 12
  day_pos : 1 ≤ d.day
  day_le : d.day ≤ daysInMonth d.year d.month

theorem Exists.day_le_31 {d : Date} (h : d.Exists) : d.day ≤ 31 := by
  have hle := h.day_le
  unfold daysInMonth at hle
  split at hle
  · split at hle <;> omega
  · split at hle <;> omega

/-- The days from the first of January of year 0 to a date that is not before it. -/
def daysBefore (year month day : Nat) : Nat :=
  ∑ y ∈ range year, yearLength y + ∑ m ∈ Ico 1 month, daysInMonth year m + (day - 1)

/-- A year that begins in March has as many days as the year it ends in. -/
theorem daysBeforeMarch_next (year : Int) :
    daysBeforeMarch (year + 1) = daysBeforeMarch year + yearLength (year + 1) := by
  by_cases h : isLeapYear (year + 1) = true
  · have hleap := isLeapYear_iff.1 h
    rw [yearLength, if_pos h, daysBeforeMarch, daysBeforeMarch]
    omega
  · have hleap := isLeapYear_iff.not.1 h
    rw [yearLength, if_neg h, daysBeforeMarch, daysBeforeMarch]
    omega

/-! ## From dates to numbers -/

/-- A later day of a month is that many days later. -/
theorem toDays_day {year : Int} {month day : Nat} (hday : 1 ≤ day) :
    toDays ⟨year, month, day⟩ = toDays ⟨year, month, 1⟩ + ((day - 1 : Nat) : Int) := by
  simp only [toDays]
  omega

/-- From one first of January to the next the days of the year go by. -/
theorem toDays_nextYear (year : Int) :
    toDays ⟨year + 1, 1, 1⟩ = toDays ⟨year, 1, 1⟩ + yearLength year := by
  have hmarch := daysBeforeMarch_next (year - 1)
  rw [sub_add_cancel] at hmarch
  simp [toDays, hmarch]
  omega

/-- From the first of a month to the first of the next one the days of the month go by. -/
theorem toDays_nextMonth {year : Int} {month : Nat} (hpos : 1 ≤ month) (hle : month ≤ 11) :
    toDays ⟨year, month + 1, 1⟩ = toDays ⟨year, month, 1⟩ + daysInMonth year month := by
  have hmarch := daysBeforeMarch_next (year - 1)
  rw [sub_add_cancel, yearLength] at hmarch
  interval_cases month
  case «2» =>
    simp [toDays, daysInMonth, hmarch]
    split <;> omega
  all_goals
    simp [toDays, daysInMonth]
    omega

theorem toDays_firstOfMonth {year : Int} {month : Nat} (hpos : 1 ≤ month) (hle : month ≤ 12) :
    toDays ⟨year, month, 1⟩ =
      toDays ⟨year, 1, 1⟩ + ((∑ m ∈ Ico 1 month, daysInMonth year m : Nat) : Int) := by
  induction month, hpos using Nat.le_induction with
  | base => simp
  | succ month hpos ih =>
    rw [toDays_nextMonth hpos (by omega), ih (by omega), sum_Ico_succ_top hpos]
    omega

theorem toDays_firstOfYear (year : Nat) :
    toDays ⟨year, 1, 1⟩ =
      toDays ⟨0, 1, 1⟩ + ((∑ y ∈ range year, yearLength y : Nat) : Int) := by
  induction year with
  | zero => simp
  | succ year ih =>
    rw [Nat.cast_succ, toDays_nextYear, ih, sum_range_succ]
    omega

/-- The number of a date is what the calendar counts from the first of January 1970 to it. -/
theorem toDays_eq {year month day : Nat} (h : (Date.mk year month day).Exists) :
    toDays ⟨year, month, day⟩ = (daysBefore year month day : Int) - daysBefore 1970 1 1 := by
  have hcount : ∀ {year month day : Nat}, (Date.mk year month day).Exists →
      toDays ⟨year, month, day⟩ = toDays ⟨0, 1, 1⟩ + (daysBefore year month day : Int) := by
    intro year month day h
    rw [toDays_day h.day_pos, toDays_firstOfMonth h.month_pos h.month_le, toDays_firstOfYear,
      daysBefore]
    simp only [Nat.cast_add, Int.add_assoc]
  have hepoch := @hcount 1970 1 1 ⟨by decide, by decide, by decide, by decide⟩
  have hzero : toDays ⟨(1970 : Nat), 1, 1⟩ = 0 := by decide
  rw [hcount h]
  omega

/-! ## From numbers to dates -/

/-- The date of a day of a year that begins in March. -/
def ofMarch (year : Int) (dayOfYear : Nat) : Date :=
  let month := (5 * dayOfYear + 2) / 153
  { year := if month < 10 then year else year + 1
    month := if month < 10 then month + 3 else month - 9
    day := dayOfYear - (153 * month + 2) / 5 + 1 }

/-- A number of days is within a year of its era. The year is found by leaving the leap days out;
its divisions are gathered so that there is one for each century and one for each fourth year. -/
theorem within_yearOfEra (day : Nat) (h : day < 146097) :
    let year : Int := ((day - day / 1460 + day / 36524 - day / 146096) / 365 : Nat)
    daysBeforeMarch year ≤ day ∧ day < daysBeforeMarch (year + 1) ∧ 0 ≤ year ∧ year ≤ 399 := by
  intro year
  rcases Nat.lt_or_eq_of_le (Nat.le_of_lt_succ h) with hday | rfl
  · obtain ⟨century, hcentury⟩ : ∃ century, day / 36524 = century := ⟨_, rfl⟩
    obtain ⟨rest, hrest⟩ : ∃ rest, day - day / 1460 + century = rest := ⟨_, rfl⟩
    have hyear : year = (rest : Int) / 365 := by
      simp only [year]
      omega
    have hfew : century < 4 := by omega
    have hhundred : (rest : Int) / 365 / 100 = century := by omega
    have hfour : (rest : Int) / 365 / 4 = rest / 1460 := by omega
    have hnext : ((rest : Int) / 365 + 1) / 4 = (rest + 365) / 1460 := by omega
    have hera : (rest : Int) / 365 / 400 = 0 := by omega
    have hnextEra : 0 ≤ ((rest : Int) / 365 + 1) / 400 := by omega
    rw [hyear]
    simp only [daysBeforeMarch, hhundred, hfour, hnext, hera]
    refine ⟨?_, ?_, by omega, by omega⟩
    · interval_cases century <;> omega
    · have hcase : ((rest : Int) / 365 + 1) / 100 = century ∨
          ((rest : Int) / 365 + 1) / 100 = century + 1 := by omega
      rcases hcase with hcase | hcase
      · rw [hcase]
        interval_cases century <;> omega
      · rw [hcase]
        interval_cases century <;> omega
  · simp only [year]
    decide

/-- Eras are of equal length. -/
theorem daysBeforeMarch_era (era year : Int) :
    daysBeforeMarch (era * 400 + year) = 146097 * era + daysBeforeMarch year := by
  simp only [daysBeforeMarch]
  omega

/-- A date that is computed from a number is a day of a year that begins in March. -/
theorem exists_ofDays_eq (days : Int) : ∃ (year : Int) (dayOfYear : Nat),
    ofDays days = ofMarch year dayOfYear ∧
      days + 719468 = daysBeforeMarch year + dayOfYear ∧
      daysBeforeMarch year + dayOfYear < daysBeforeMarch (year + 1) := by
  obtain ⟨day, hday⟩ : ∃ day : Nat, (days + 719468) % 146097 = day :=
    ⟨((days + 719468) % 146097).toNat, by omega⟩
  obtain ⟨era, hera⟩ : ∃ era, (days + 719468) / 146097 = era := ⟨_, rfl⟩
  obtain ⟨year, hyear⟩ : ∃ year : Nat,
      (day - day / 1460 + day / 36524 - day / 146096) / 365 = year := ⟨_, rfl⟩
  obtain ⟨hlow, hhigh, -, hle⟩ := within_yearOfEra day (by omega)
  rw [hyear] at hlow hhigh hle
  have hofDays : ofDays days =
      ofMarch (era * 400 + year) (day - (365 * year + year / 4 - year / 100)) := by
    simp only [ofDays, hday, hera, Int.toNat_natCast, hyear, ofMarch]
  have hdayOfYear : ((day - (365 * year + year / 4 - year / 100) : Nat) : Int) =
      day - daysBeforeMarch year := by
    clear hyear
    simp only [daysBeforeMarch] at hlow ⊢
    omega
  refine ⟨_, _, hofDays, ?_, ?_⟩
  · rw [hdayOfYear, daysBeforeMarch_era]
    omega
  · rw [hdayOfYear, Int.add_assoc, daysBeforeMarch_era, daysBeforeMarch_era]
    linarith only [hhigh]

theorem toDays_ofMarch {year : Int} {dayOfYear : Nat} (h : dayOfYear ≤ 365) :
    (ofMarch year dayOfYear).toDays = daysBeforeMarch year + dayOfYear - 719468 := by
  obtain ⟨month, hmonth⟩ : ∃ month, (5 * dayOfYear + 2) / 153 = month := ⟨_, rfl⟩
  have hle : month ≤ 11 := by omega
  simp only [ofMarch, hmonth, toDays]
  by_cases hnew : month < 10
  · have hback : (month + 3 + 9) % 12 = month := by omega
    simp only [hnew, if_true, hback, show ¬ month + 3 ≤ 2 by omega, if_false]
    omega
  · have hback : (month - 9 + 9) % 12 = month := by omega
    simp only [hnew, if_false, hback, show month - 9 ≤ 2 by omega, if_true]
    simp
    omega

/-- The months of a year that begins in March end where the calendar says. -/
theorem exists_ofMarch {year : Int} {dayOfYear : Nat} (h : dayOfYear < yearLength (year + 1)) :
    (ofMarch year dayOfYear).Exists := by
  obtain ⟨month, hmonth⟩ : ∃ month, (5 * dayOfYear + 2) / 153 = month := ⟨_, rfl⟩
  have hle : dayOfYear ≤ 365 := by
    unfold yearLength at h
    split at h <;> omega
  have hshort : isLeapYear (year + 1) = false → dayOfYear ≤ 364 := by
    intro hleap
    rw [yearLength, hleap] at h
    exact Nat.le_of_lt_succ h
  have hmonths : month ≤ 11 := by omega
  constructor <;> simp only [ofMarch, hmonth]
  · split <;> omega
  · split <;> omega
  · omega
  · cases hleap : isLeapYear (year + 1)
    · have hlast := hshort hleap
      interval_cases month <;> simp [daysInMonth, hleap] <;> omega
    · interval_cases month <;> simp [daysInMonth, hleap] <;> omega

/-- What is computed from a number is a date of the calendar. -/
theorem ofDays_exists (days : Int) : (ofDays days).Exists := by
  obtain ⟨year, dayOfYear, heq, -, hlt⟩ := exists_ofDays_eq days
  rw [daysBeforeMarch_next] at hlt
  rw [heq]
  exact exists_ofMarch (by omega)

/-- The date that is computed from a number has this number. -/
theorem toDays_ofDays (days : Int) : (ofDays days).toDays = days := by
  obtain ⟨year, dayOfYear, heq, hdays, hlt⟩ := exists_ofDays_eq days
  have hlength : yearLength (year + 1) ≤ 366 := by
    unfold yearLength
    split <;> omega
  rw [daysBeforeMarch_next] at hlt
  rw [heq, toDays_ofMarch (by omega), ← hdays]
  omega

example : ofDays 11016 = ⟨2000, 2, 29⟩ ∧ (mk 2000 2 29).toDays = 11016 := by decide

example : ofDays ((mk (-1) 12 31).toDays + 1) = ⟨0, 1, 1⟩ := by decide

/-- Dates in the years from 0 to 9999 have numbers of no more than seven digits. -/
theorem toDays_bounds {d : Date} (hfirst : 0 ≤ d.year) (hlast : d.year ≤ 9999)
    (hexists : d.Exists) : -720000 ≤ d.toDays ∧ d.toDays ≤ 3000000 := by
  have hpos := hexists.month_pos
  have hle := hexists.month_le
  have hday := hexists.day_le_31
  simp only [toDays, daysBeforeMarch]
  split <;> omega

/-- Numbers of no more than seven digits belong to years of no more than five. -/
theorem ofDays_year_bounds {days : Int} (hlow : -800000 ≤ days) (hhigh : days ≤ 4000000) :
    -10000 ≤ (ofDays days).year ∧ (ofDays days).year ≤ 20000 := by
  simp only [ofDays]
  split <;> omega

end Date

end LogAudit.Time
