import Mathlib.Data.Int.Order.Basic

/-!
# Instants and their UTC calendar

The definitions of the ECMAScript specification, in milliseconds since 1970: the day of an
instant, the year, month and date of a day, and the day they make, where a month beyond the
twelfth and a date beyond the month run over.
-/
namespace EcmaDate

def msPerDay : ℤ := 86400000

def day (t : ℤ) : ℤ := t / msPerDay

def timeWithinDay (t : ℤ) : ℤ := t % msPerDay

def isLeap (year : ℤ) : Bool := year % 4 = 0 ∧ (year % 100 ≠ 0 ∨ year % 400 = 0)

def dayFromYear (year : ℤ) : ℤ :=
  365 * (year - 1970) + (year - 1969) / 4 - (year - 1901) / 100 + (year - 1601) / 400

/-- The year is estimated from the mean length of a year and then corrected. -/
def yearFromDay (d : ℤ) : ℤ :=
  let estimate := 1970 + 400 * d / 146097
  if d < dayFromYear estimate then estimate - 1
  else if dayFromYear (estimate + 1) ≤ d then estimate + 1
  else estimate

/-- Days of the year before the month with this index; January has index 0. -/
def daysBeforeMonth (leap : Bool) (month : ℤ) : ℤ :=
  ([0, 31, 59, 90, 120, 151, 181, 212, 243, 273, 304, 334] : List ℤ).getD month.toNat 334 +
    if leap ∧ 2 ≤ month then 1 else 0

def dayWithinYear (d : ℤ) : ℤ := d - dayFromYear (yearFromDay d)

/-- The last month that has begun. -/
def monthFromDay (d : ℤ) : ℤ :=
  (([1, 2, 3, 4, 5, 6, 7, 8, 9, 10, 11] : List ℤ).filter fun month =>
    daysBeforeMonth (isLeap (yearFromDay d)) month ≤ dayWithinYear d).length

def dateFromDay (d : ℤ) : ℤ := dayWithinYear d - daysBeforeMonth (isLeap (yearFromDay d)) (monthFromDay d) + 1

def makeDay (year month date : ℤ) : ℤ :=
  dayFromYear (year + month / 12) + daysBeforeMonth (isLeap (year + month / 12)) (month % 12) + date - 1

def makeDate (day time : ℤ) : ℤ := day * msPerDay + time

def getUTCFullYear (t : ℤ) : ℤ := yearFromDay (day t)

def getUTCMonth (t : ℤ) : ℤ := monthFromDay (day t)

def getUTCDate (t : ℤ) : ℤ := dateFromDay (day t)

def setUTCMonth (t month : ℤ) : ℤ :=
  makeDate (makeDay (getUTCFullYear t) month (getUTCDate t)) (timeWithinDay t)

def setUTCDate (t date : ℤ) : ℤ :=
  makeDate (makeDay (getUTCFullYear t) (getUTCMonth t) date) (timeWithinDay t)

/-- `Date.UTC`; the years 0 to 99 stand for 1900 to 1999. -/
def utc (year month date : ℤ) : ℤ :=
  makeDate (makeDay (if 0 ≤ year ∧ year ≤ 99 then 1900 + year else year) month date) 0

theorem monthFromDay_bounds (d : ℤ) : 0 ≤ monthFromDay d ∧ monthFromDay d ≤ 11 := by
  have h := List.length_filter_le
    (fun month => daysBeforeMonth (isLeap (yearFromDay d)) month ≤ dayWithinYear d)
    ([1, 2, 3, 4, 5, 6, 7, 8, 9, 10, 11] : List ℤ)
  simp only [List.length_cons, List.length_nil] at h
  unfold monthFromDay
  omega

/-- The year, the month and the date of a day make up the day again. -/
theorem makeDay_date (d k : ℤ) : makeDay (yearFromDay d) (monthFromDay d) (dateFromDay d + k) = d + k := by
  obtain ⟨hlow, hhigh⟩ := monthFromDay_bounds d
  rw [makeDay, Int.ediv_eq_zero_of_lt hlow (by omega), Int.emod_eq_of_lt hlow (by omega), Int.add_zero, dateFromDay,
    dayWithinYear]
  omega

theorem setUTCDate_next (t : ℤ) : setUTCDate t (getUTCDate t + 1) = t + msPerDay := by
  rw [setUTCDate, getUTCFullYear, getUTCMonth, getUTCDate, makeDay_date, makeDate, day, timeWithinDay, msPerDay]
  omega

theorem day_next (t : ℤ) : day (t + msPerDay) = day t + 1 := by
  unfold day msPerDay
  omega

theorem eq_of_day (hday : day a = day b) (htime : timeWithinDay a = timeWithinDay b) : a = b := by
  unfold day timeWithinDay msPerDay at *
  omega

/-- The 29th of February 2024 plus a year runs over into March. -/
example : setUTCMonth (utc 2024 1 29) (getUTCMonth (utc 2024 1 29) + 12) = utc 2025 2 1 := by decide +kernel

end EcmaDate
