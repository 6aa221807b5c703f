import PlotAnnotation.Calendar.Instant
import PlotAnnotation.Granularity
import PlotAnnotation.Locale.Table

/-!
# Date labels

A label shows the fields of a date from the finest one down to the year, joined by `-`: the day, the
short name of the month, the year.  Under a granularity only the fields that are no finer are shown.

A `Composer` makes the labels of instants, with a table of languages and an offset from UTC.
-/

namespace PlotAnnotation

namespace Label

/-- The text of one field of a date. -/
def field (date : CalendarDate) (names : MonthNames) : Granularity → Except Fault String
  | .year => .ok (integerText date.year)
  | .month => names.shortName date.month0
  | .day => .ok (naturalText date.day)

/-- The fields shown under a granularity, coarsest first; without one, all of them. -/
def shown (granularity : Option Granularity) : List Granularity :=
  Granularity.all.filter fun g => granularity.all (g.rank ≤ ·.rank)

/-- The label of a date. It fails only where a month is shown that is none. -/
def ofDate (date : CalendarDate) (granularity : Option Granularity) (names : MonthNames) :
    Except Fault String := do
  let fields ← (shown granularity).mapM (field date names)
  return "-".intercalate fields.reverse

@[simp] theorem shown_none : shown none = [.year, .month, .day] := rfl

@[simp] theorem shown_year : shown (some .year) = [.year] := rfl

@[simp] theorem shown_month : shown (some .month) = [.year, .month] := rfl

@[simp] theorem shown_day : shown (some .day) = [.year, .month, .day] := rfl

end Label

/-- What makes the labels of instants. -/
structure Composer where
  locales : LocaleTable := .builtin
  offset : UtcOffset := .utc

namespace Composer

/-- The label of an instant, or the fault that it has no date. -/
def label? (composer : Composer) (timestamp : Int64) (granularity : Option Granularity)
    (language : Option String) : Except Fault String :=
  match CalendarDate.ofInstant? timestamp composer.offset with
  | some date => Label.ofDate date granularity (composer.locales.lookup language)
  | none => .error (.instant timestamp)

/-- The label of an instant; an instant without a date has an empty one. -/
def label (composer : Composer) (timestamp : Int64) (granularity : Option Granularity)
    (language : Option String) : String :=
  match composer.label? timestamp granularity language with
  | .ok text => text
  | .error _ => ""

/-- The label of an instant at a granularity given by name; any other name shows the whole date. -/
def labelByName (composer : Composer) (timestamp : Int64) (name : String)
    (language : Option String) : String :=
  composer.label timestamp (Granularity.ofName? name) language

end Composer

end PlotAnnotation
