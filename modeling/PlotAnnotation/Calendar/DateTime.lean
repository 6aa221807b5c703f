import PlotAnnotation.Arithmetic
import PlotAnnotation.Calendar.Instant

/-!
# Dates with a time of day

A `DateTime` is a day of the calendar and a time of day in seconds and nanoseconds.  A time with a
thousand million nanoseconds or more lies in the leap second that follows its second, and its
instant is that of the second after.  A clock shows a leap second at the end of a minute only.

A date may be moved by whole minutes, which keeps the seconds within the minute.
-/

namespace PlotAnnotation

open scoped Arithmetic

/-- The first day of the calendar, -262143-01-01. -/
def firstDay : Int := -96465292

/-- The last day of the calendar, 262142-12-31. -/
def lastDay : Int := 95026236

/-- The time of a day. Past `10 ^ 9` nanoseconds it lies within a leap second. -/
structure TimeOfDay where
  second : Nat
  nano : Nat
  second_lt : second < 86400 := by decide
  nano_lt : nano < 2 * 10 ^ 9 := by decide
deriving DecidableEq, Repr

namespace TimeOfDay

/-- The start of the day. -/
def midnight : TimeOfDay where
  second := 0
  nano := 0

/-- The time on the clock, with a fraction in nanoseconds.  Second 60 is the leap second of any
minute. -/
def ofClock? (hour minute second nano : Nat) : Option TimeOfDay :=
  if h : hour ≤ 23 ∧ minute ≤ 59 ∧ nano < 10 ^ 9 then
    if h1 : second ≤ 59 then
      some ⟨hour * 3600 + minute * 60 + second, nano, by omega, by omega⟩
    else if second = 60 then
      some ⟨hour * 3600 + minute * 60 + 59, 10 ^ 9 + nano, by omega, by omega⟩
    else none
  else none

end TimeOfDay

/-- A day of the calendar and a time of that day. -/
structure DateTime where
  day : Int
  time : TimeOfDay
  first_le : firstDay ≤ day := by decide
  le_last : day ≤ lastDay := by decide
deriving DecidableEq, Repr

namespace DateTime

/-- The time of a day, if the day is in the calendar. -/
def ofDay? (day : Int) (time : TimeOfDay) : Option DateTime :=
  if h : firstDay ≤ day ∧ day ≤ lastDay then some ⟨day, time, h.1, h.2⟩ else none

/-- The time of a date, if the date exists and is in the calendar. -/
def ofDate? (date : CalendarDate) (time : TimeOfDay) : Option DateTime :=
  if date.Exists then ofDay? date.dayNumber time else none

/-- The seconds since the start of 1970. -/
def seconds (t : DateTime) : Int :=
  t.day * 86400 + t.time.second

/-- The same time so many minutes later. -/
def addMinutes? (t : DateTime) (minutes : Int) : Option DateTime :=
  let moved := t.seconds + 60 * minutes
  ofDay? (moved / 86400)
    ⟨(moved % 86400).toNat, t.time.nano, by omega, t.time.nano_lt⟩

/-- The instant in milliseconds, as an integer. -/
def millis (t : DateTime) : Int :=
  t.seconds * 1000 + (t.time.nano / 10 ^ 6 : Nat)

/-- The instant in milliseconds. -/
def timestamp (t : DateTime) : Int64 :=
  Int64.ofInt t.millis

/-- No instant of the calendar is out of the range of timestamps. -/
theorem toInt_timestamp (t : DateTime) : t.timestamp.toInt = t.millis := by
  have h1 := t.first_le
  have h2 := t.le_last
  have h3 := t.time.second_lt
  have h4 := t.time.nano_lt
  unfold timestamp
  apply Int64.toInt_ofInt_of_le <;> unfold millis seconds firstDay lastDay at * <;> omega

end DateTime

end PlotAnnotation
