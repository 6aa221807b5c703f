import PlotAnnotation.Arithmetic

/-!
# Calendar dates and day numbers

Dates of the proleptic Gregorian calendar, with a year 0 and negative years, and the days numbered
from 1970-01-01, which is day 0.

From a date to its day number one adds the days before the year, those before the month, and those
before the day.  The other way, the year is guessed from the mean length of a year, 146097 days in
400 years; the guess is off by at most one, and is put right by the first days of the years around
it.  The month is then found by walking through the twelve lengths.
-/

namespace PlotAnnotation

open scoped Arithmetic

/-- The fields of a date.  `month0` is 0 for January; a date read from outside need not exist. -/
structure CalendarDate where
  year : Int
  month0 : Nat
  day : Nat
deriving DecidableEq, Repr

namespace CalendarDate

/-- Every fourth year is a leap year, of the full centuries only every fourth. -/
def isLeap (year : Int) : Bool :=
  year % 4 = 0 && (year % 100 != 0 || year % 400 = 0)

/-- The lengths of the months of a year. -/
def monthLengths (year : Int) : List Nat :=
  [31, if isLeap year then 29 else 28, 31, 30, 31, 30, 31, 31, 30, 31, 30, 31]

/-- The date exists in the calendar. -/
def Exists (date : CalendarDate) : Prop :=
  1 ≤ date.day ∧ date.day ≤ (monthLengths date.year)[date.month0]?.getD 0

instance (date : CalendarDate) : Decidable date.Exists :=
  inferInstanceAs (Decidable (_ ∧ _))

/-- The number of the first day of a year. -/
def yearStart (year : Int) : Int :=
  365 * (year - 1970) + (year - 1) / 4 - (year - 1) / 100 + (year - 1) / 400 - 477

/-- The number of a day. -/
def dayNumber (date : CalendarDate) : Int :=
  yearStart date.year + ((monthLengths date.year).take date.month0).sum + (date.day - 1)

/-- The year that a day lies in. -/
def yearOfDay (n : Int) : Int :=
  let guess := (n + 719528) * 400 / 146097
  if n < yearStart guess then guess - 1
  else if yearStart (guess + 1) ≤ n then guess + 1
  else guess

/-- The month that the day after `n` others lies in, and its number within that month. -/
def inMonths : List Nat → Nat → Nat × Nat
  | [], n => (0, n + 1)
  | length :: rest, n =>
    if n < length then (0, n + 1)
    else ((inMonths rest (n - length)).1 + 1, (inMonths rest (n - length)).2)

/-- The date of a day. -/
def ofDayNumber (n : Int) : CalendarDate :=
  let year := yearOfDay n
  let (month0, day) := inMonths (monthLengths year) (n - yearStart year).toNat
  ⟨year, month0, day⟩

/-- The length of a year, as the distance to the next one. -/
theorem yearStart_succ (year : Int) :
    yearStart (year + 1) = yearStart year + if isLeap year then 366 else 365 := by
  unfold yearStart isLeap
  simp
  split <;> omega

/-- A day lies in its year. -/
theorem yearOfDay_bounds (n : Int) :
    yearStart (yearOfDay n) ≤ n ∧ n < yearStart (yearOfDay n + 1) := by
  unfold yearOfDay
  simp only
  split
  · rw [Int.sub_add_cancel]
    unfold yearStart at *
    omega
  split
  · unfold yearStart at *
    omega
  · omega

/-- Walking through the months loses no day. -/
theorem inMonths_sum {lengths : List Nat} {n : Nat} (h : n < lengths.sum) :
    (lengths.take (inMonths lengths n).1).sum + (inMonths lengths n).2 = n + 1 ∧
      1 ≤ (inMonths lengths n).2 ∧
      (inMonths lengths n).2 ≤ lengths[(inMonths lengths n).1]?.getD 0 := by
  induction lengths generalizing n with
  | nil => simp at h
  | cons length rest ih =>
    rw [List.sum_cons] at h
    by_cases hn : n < length
    · simp only [inMonths, if_pos hn, List.take_zero, List.sum_nil, List.getElem?_cons_zero,
        Option.getD_some]
      omega
    · have := ih (n := n - length) (by omega)
      simp only [inMonths, if_neg hn, List.take_succ_cons, List.sum_cons, List.getElem?_cons_succ]
      omega

/-- The lengths of the months add up to that of the year. -/
theorem sum_monthLengths (year : Int) :
    (monthLengths year).sum = if isLeap year then 366 else 365 := by
  unfold monthLengths
  split <;> simp

/-- The day of a year that a day is lies within that year. -/
theorem dayOfYear_lt (n : Int) :
    (n - yearStart (yearOfDay n)).toNat < (monthLengths (yearOfDay n)).sum := by
  have := yearOfDay_bounds n
  rw [yearStart_succ] at this
  rw [sum_monthLengths]
  split at this <;> simp_all <;> omega

/-- The date of a day exists. -/
theorem exists_ofDayNumber (n : Int) : (ofDayNumber n).Exists :=
  (inMonths_sum (dayOfYear_lt n)).2

/-- The date of a day has that day's number. -/
@[simp] theorem dayNumber_ofDayNumber (n : Int) : (ofDayNumber n).dayNumber = n := by
  have h := (inMonths_sum (dayOfYear_lt n)).1
  have hy := (yearOfDay_bounds n).1
  simp only [dayNumber, ofDayNumber]
  omega

end CalendarDate

end PlotAnnotation
