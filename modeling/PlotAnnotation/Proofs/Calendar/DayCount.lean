import Mathlib.Logic.Function.Iterate
import Mathlib.Tactic.Lemma
import PlotAnnotation.Calendar.Instant

/-!
# Counting days

A day number is a closed expression in the fields of a date.  This file shows that it counts days:
it is 0 on the first of January 1970 and one more on the day after any date, where the day after is
found from the calendar alone (`next`).

The converse `ofDayNumber` guesses the year and walks through the months.  Both parts are shown to
invert the expression (`yearOfDay_eq`, `inMonths_eq`), so that every date of the calendar is the
date of its number (`ofDayNumber_dayNumber`).  The main statement is about the dates of instants.
-/

namespace PlotAnnotation.CalendarDate

open scoped Arithmetic

/-! ### The calendar by itself -/

/-- The length of a month; there are no more than twelve. -/
def monthLength (year : Int) (month0 : Nat) : Nat :=
  (monthLengths year)[month0]?.getD 0

/-- The first of January 1970. -/
def epoch : CalendarDate := ⟨1970, 0, 1⟩

/-- The day after: in the same month, or the first of the next one. -/
def next (date : CalendarDate) : CalendarDate :=
  if date.day < monthLength date.year date.month0 then { date with day := date.day + 1 }
  else if date.month0 < 11 then ⟨date.year, date.month0 + 1, 1⟩
  else ⟨date.year + 1, 0, 1⟩

/-- The date is `n` days after the epoch, or the epoch is `-n` days after the date. -/
def FallsOn (date : CalendarDate) (n : Int) : Prop :=
  next^[n.toNat] epoch = next^[(-n).toNat] date

/-- A date exists exactly if its month is one of the twelve and its day is within the month. -/
lemma exists_iff (date : CalendarDate) :
    date.Exists ↔ date.month0 < 12 ∧ 1 ≤ date.day ∧
      date.day ≤ monthLength date.year date.month0 := by
  unfold Exists monthLength
  constructor
  · rintro ⟨hpos, hle⟩
    refine ⟨?_, hpos, hle⟩
    by_contra hmonth
    have hnone : (monthLengths date.year)[date.month0]? = none :=
      List.getElem?_eq_none (by simpa [monthLengths] using hmonth)
    rw [hnone, Option.getD_none] at hle
    omega
  · rintro ⟨-, hpos, hle⟩
    exact ⟨hpos, hle⟩

/-! ### Years and months recovered from the day number -/

/-- Years do not overlap. -/
lemma yearStart_succ_le {y z : Int} (h : y < z) : yearStart (y + 1) ≤ yearStart z := by
  unfold yearStart
  omega

/-- A day lies in no other year than the one found for it. -/
lemma yearOfDay_eq {n y : Int} (hlow : yearStart y ≤ n) (hhigh : n < yearStart (y + 1)) :
    yearOfDay n = y := by
  obtain ⟨hlow', hhigh'⟩ := yearOfDay_bounds n
  rcases Int.lt_trichotomy (yearOfDay n) y with h | h | h
  · have := yearStart_succ_le h
    omega
  · exact h
  · have := yearStart_succ_le h
    omega

/-- Walking through the months finds a month and a day within it again. -/
lemma inMonths_eq {lengths : List Nat} {month0 day : Nat} (hpos : 1 ≤ day)
    (hle : day ≤ lengths[month0]?.getD 0) :
    inMonths lengths ((lengths.take month0).sum + (day - 1)) = (month0, day) := by
  induction lengths generalizing month0 with
  | nil =>
    simp only [List.getElem?_nil, Option.getD_none] at hle
    omega
  | cons length rest ih =>
    cases month0 with
    | zero =>
      simp only [List.getElem?_cons_zero, Option.getD_some] at hle
      have hlt : day - 1 < length := by omega
      simp only [List.take_zero, List.sum_nil, Nat.zero_add, inMonths, if_pos hlt, Prod.mk.injEq,
        true_and]
      omega
    | succ month0 =>
      rw [List.getElem?_cons_succ] at hle
      rw [List.take_succ_cons, List.sum_cons, inMonths, if_neg (by omega),
        show length + (rest.take month0).sum + (day - 1) - length =
          (rest.take month0).sum + (day - 1) by omega, ih hle]

/-- A day within its month is within its year. -/
lemma sum_take_add_le {lengths : List Nat} {month0 day : Nat} (hpos : 1 ≤ day)
    (hle : day ≤ lengths[month0]?.getD 0) : (lengths.take month0).sum + day ≤ lengths.sum := by
  induction lengths generalizing month0 with
  | nil =>
    simp only [List.getElem?_nil, Option.getD_none] at hle
    omega
  | cons length rest ih =>
    cases month0 with
    | zero =>
      simp only [List.getElem?_cons_zero, Option.getD_some] at hle
      simp only [List.take_zero, List.sum_nil, List.sum_cons]
      omega
    | succ month0 =>
      rw [List.getElem?_cons_succ] at hle
      have := ih hle
      rw [List.take_succ_cons, List.sum_cons, List.sum_cons]
      omega

/-- The number of a day of the calendar lies within the days of its year. -/
lemma dayNumber_bounds {date : CalendarDate} (h : date.Exists) :
    yearStart date.year ≤ date.dayNumber ∧ date.dayNumber < yearStart (date.year + 1) := by
  have hsum := sum_take_add_le h.1 h.2
  have hpos := h.1
  rw [sum_monthLengths] at hsum
  rw [yearStart_succ]
  unfold dayNumber
  split at hsum
  · next hleap =>
    rw [if_pos hleap]
    omega
  · next hleap =>
    rw [if_neg hleap]
    omega

/-- Every date of the calendar is the date of its day number. -/
lemma ofDayNumber_dayNumber {date : CalendarDate} (h : date.Exists) :
    ofDayNumber date.dayNumber = date := by
  obtain ⟨hlow, hhigh⟩ := dayNumber_bounds h
  have hpos := h.1
  have hday : (date.dayNumber - yearStart date.year).toNat =
      ((monthLengths date.year).take date.month0).sum + (date.day - 1) := by
    unfold dayNumber
    omega
  simp only [ofDayNumber, yearOfDay_eq hlow hhigh, hday, inMonths_eq h.1 h.2]

/-! ### The day number counts days -/

/-- No month of the calendar is without days. -/
lemma monthLength_pos (year : Int) {month0 : Nat} (h : month0 < 12) :
    1 ≤ monthLength year month0 := by
  have hmem : ∀ length ∈ monthLengths year, 1 ≤ length := by
    unfold monthLengths
    split <;> simp
  have hlt : month0 < (monthLengths year).length := h
  rw [monthLength, List.getElem?_eq_getElem hlt, Option.getD_some]
  exact hmem _ (List.getElem_mem hlt)

/-- No day of the calendar is past the 31st. -/
lemma Exists.day_le {date : CalendarDate} (h : date.Exists) : date.day ≤ 31 := by
  have hmem : ∀ length ∈ monthLengths date.year, length ≤ 31 := by
    unfold monthLengths
    split <;> simp
  have hmonth : date.month0 < (monthLengths date.year).length := ((exists_iff date).1 h).1
  have hday := h.2
  rw [List.getElem?_eq_getElem hmonth, Option.getD_some] at hday
  exact Nat.le_trans hday (hmem _ (List.getElem_mem hmonth))

/-- The days before the next month are those before this one and its own. -/
lemma sum_take_succ (year : Int) {month0 : Nat} (h : month0 < 12) :
    ((monthLengths year).take (month0 + 1)).sum =
      ((monthLengths year).take month0).sum + monthLength year month0 := by
  have hlt : month0 < (monthLengths year).length := h
  rw [List.take_add_one, List.sum_append, monthLength, List.getElem?_eq_getElem hlt]
  simp

/-- The day after a date of the calendar is one of the calendar. -/
lemma exists_next {date : CalendarDate} (h : date.Exists) : date.next.Exists := by
  obtain ⟨hmonth, hpos, -⟩ := (exists_iff date).1 h
  unfold next
  rw [exists_iff]
  split
  · next hlt => exact ⟨hmonth, Nat.le_add_left 1 _, hlt⟩
  split
  · next hlt =>
    have hsucc : date.month0 + 1 < 12 := by omega
    exact ⟨hsucc, Nat.le_refl 1, monthLength_pos _ hsucc⟩
  · exact ⟨Nat.zero_lt_succ 11, Nat.le_refl 1, monthLength_pos _ (Nat.zero_lt_succ 11)⟩

/-- The day after a date has the next number. -/
lemma dayNumber_next {date : CalendarDate} (h : date.Exists) :
    date.next.dayNumber = date.dayNumber + 1 := by
  obtain ⟨hmonth, hpos, hle⟩ := (exists_iff date).1 h
  have htake := sum_take_succ date.year hmonth
  unfold next
  split
  · simp only [dayNumber]
    omega
  split
  · simp only [dayNumber, htake]
    omega
  · -- the last day of the year is the one before the next year starts
    have hlast : date.month0 + 1 = (monthLengths date.year).length := by
      have hlen : (monthLengths date.year).length = 12 := rfl
      omega
    rw [hlast, List.take_length, sum_monthLengths] at htake
    simp only [dayNumber, yearStart_succ, List.take_zero, List.sum_nil]
    split at htake
    · next hleap =>
      rw [if_pos hleap]
      omega
    · next hleap =>
      rw [if_neg hleap]
      omega

/-- The date of the next day is the day after. -/
lemma next_ofDayNumber (n : Int) : (ofDayNumber n).next = ofDayNumber (n + 1) := by
  have h := exists_ofDayNumber n
  rw [← ofDayNumber_dayNumber (exists_next h), dayNumber_next h, dayNumber_ofDayNumber]

/-- Going on day by day adds up in the day number. -/
lemma iterate_next_ofDayNumber (k : Nat) (n : Int) :
    next^[k] (ofDayNumber n) = ofDayNumber (n + k) := by
  induction k generalizing n with
  | zero => simp
  | succ k ih =>
    rw [Function.iterate_succ_apply, next_ofDayNumber, ih]
    congr 1
    push_cast
    omega

/-- Day 0 is the first of January 1970. -/
lemma ofDayNumber_zero : ofDayNumber 0 = epoch := by
  decide

/-- The date of a day is reached by counting that many days. -/
lemma fallsOn_ofDayNumber (n : Int) : (ofDayNumber n).FallsOn n := by
  unfold FallsOn
  rw [← ofDayNumber_zero, iterate_next_ofDayNumber, iterate_next_ofDayNumber]
  congr 1
  omega

/-! ### Dates of instants -/

/-- The day that an instant falls on at an offset, by rounding down. -/
def dayOfInstant (timestamp : Int64) (offset : UtcOffset) : Int :=
  (timestamp.toInt / 1000 + offset.seconds) / 86400

/-- The instants without a date are those outside of the calendar. -/
lemma ofInstant?_eq_none_iff {timestamp : Int64} {offset : UtcOffset} :
    ofInstant? timestamp offset = none ↔
      timestamp.toInt < firstInstant ∨ lastInstant < timestamp.toInt := by
  simp only [ofInstant?, ite_eq_right_iff, reduceCtorEq, imp_false]
  omega

/-- The date of an instant is that of its day. -/
lemma eq_ofDayNumber_of_ofInstant? {timestamp : Int64} {offset : UtcOffset} {date : CalendarDate}
    (h : ofInstant? timestamp offset = some date) :
    date = ofDayNumber (dayOfInstant timestamp offset) := by
  simp only [ofInstant?, Option.ite_none_right_eq_some, Option.some.injEq] at h
  exact h.2.symm

/-- The date of an instant exists. -/
lemma exists_of_ofInstant? {timestamp : Int64} {offset : UtcOffset} {date : CalendarDate}
    (h : ofInstant? timestamp offset = some date) : date.Exists := by
  rw [eq_ofDayNumber_of_ofInstant? h]
  exact exists_ofDayNumber _

/-- An instant has no date exactly if it lies outside of the calendar, whatever the offset.  Any
other has a date of the calendar, the one that its day falls on. -/
theorem ofInstant?_fallsOn (timestamp : Int64) (offset : UtcOffset) :
    (ofInstant? timestamp offset = none ↔
      timestamp.toInt < -8334601228800000 ∨ 8210266876799999 < timestamp.toInt) ∧
    ∀ date, ofInstant? timestamp offset = some date →
      (date.month0 < 12 ∧ 1 ≤ date.day ∧ date.day ≤ monthLength date.year date.month0) ∧
      date.dayNumber = dayOfInstant timestamp offset ∧
      date.FallsOn (dayOfInstant timestamp offset) := by
  refine ⟨ofInstant?_eq_none_iff, fun date h => ⟨?_, ?_⟩⟩
  · exact (exists_iff date).1 (exists_of_ofInstant? h)
  · rw [eq_ofDayNumber_of_ofInstant? h]
    exact ⟨dayNumber_ofDayNumber _, fallsOn_ofDayNumber _⟩

end PlotAnnotation.CalendarDate
