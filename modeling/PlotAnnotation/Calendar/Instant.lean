import PlotAnnotation.Calendar.Date

/-!
# Instants and the dates they fall on

An instant is a number of milliseconds from the start of 1970 in UTC.  The calendar covers the
years -262143 to 262142 in UTC; an instant outside of them has no date.  Seconds and days are
rounded down, so instants before 1970 fall on the day before.  The offset from UTC is applied to an
instant that is within the calendar, and may carry its date one day past the end.
-/

namespace PlotAnnotation

/-- A fixed distance from UTC, in seconds to the east, of less than a day. -/
structure UtcOffset where
  seconds : Int
  lower : -86400 < seconds := by decide
  upper : seconds < 86400 := by decide
deriving DecidableEq, Repr

namespace UtcOffset

/-- No distance from UTC. -/
def utc : UtcOffset where
  seconds := 0

/-- The offset of the given seconds, if it is less than a day. -/
def ofSeconds? (seconds : Int) : Option UtcOffset :=
  if h : -86400 < seconds ∧ seconds < 86400 then some ⟨seconds, h.1, h.2⟩ else none

end UtcOffset

namespace CalendarDate

/-- The first millisecond of the calendar. -/
def firstInstant : Int := -8334601228800000

/-- The last millisecond of the calendar. -/
def lastInstant : Int := 8210266876799999

/-- The date of an instant at an offset from UTC; none outside the calendar. -/
def ofInstant? (timestamp : Int64) (offset : UtcOffset) : Option CalendarDate :=
  let t := timestamp.toInt
  if firstInstant ≤ t ∧ t ≤ lastInstant then
    some (ofDayNumber ((t / 1000 + offset.seconds) / 86400))
  else none

end CalendarDate

end PlotAnnotation
