import PlotAnnotation.Granularity
import PlotAnnotation.Text.Case

/-!
# Settings of a graph page

Which graphs a page shows: whether to show the graphs over time and over which field, how wide their
buckets are, whether to show the graph of counts, over which field and under which title.

Settings are read from the values of a form, where a truth value may be a word and an empty text is
none, or from their own wire form, where everything has its type.  A form is refused for the first
setting that is wrong.
-/

namespace PlotAnnotation

open Json

/-- The widths of the buckets that dates are counted in. -/
inductive BucketWidth where
  | minute
  | hour
  | day
  | month
  | year
deriving DecidableEq, Repr

namespace BucketWidth

/-- All widths. -/
def all : List BucketWidth := [minute, hour, day, month, year]

/-- The name of a width. -/
def name : BucketWidth → String
  | minute => "minute"
  | hour => "hour"
  | day => "day"
  | month => "month"
  | year => "year"

/-- The width with exactly this name. -/
def ofName? (s : String) : Option BucketWidth :=
  all.find? (·.name == s)

/-- The width with exactly this name, or a fault that quotes it. -/
def ofName (s : String) : Except Fault BucketWidth :=
  match ofName? s with
  | some w => .ok w
  | none => .error (.setting .dateInterval (.notAllowed s))

/-- The granularity of labels over such buckets. Below a day, labels show the whole date. -/
def granularity (w : BucketWidth) : Option Granularity :=
  Granularity.ofName? w.name

instance : Wire BucketWidth where
  toValue w := .string w.name
  ofTree? t := t.toName?.bind ofName?

@[simp] theorem ofName?_name (w : BucketWidth) : ofName? w.name = some w := by
  cases w <;> decide

end BucketWidth

/-- The settings of a graph page. -/
structure GraphSettings where
  showDate : Bool
  dateField : Option String
  width : BucketWidth
  showCount : Bool
  countField : Option String
  countLabel : Option String
deriving DecidableEq, Repr

namespace GraphSettings

/-- The graphs over time are shown. -/
def wantsDates (s : GraphSettings) : Bool :=
  s.showDate && s.dateField.isSome

/-- The graph of counts is shown. -/
def wantsCounts (s : GraphSettings) : Bool :=
  s.showCount && s.countField.isSome

instance : Wire GraphSettings where
  toValue s := .object [("show_date", .bool s.showDate), ("date_field", .ofText? s.dateField),
    ("date_interval", Wire.toValue s.width), ("show_count", .bool s.showCount),
    ("count_field", .ofText? s.countField), ("count_label", .ofText? s.countLabel)]
  ofTree? t := do
    let field ← fields? ["show_date", "date_field", "date_interval", "show_count", "count_field",
      "count_label"] t
    return { showDate := ← (field "show_date").required Tree.toBool?
             dateField := ← (field "date_field").optional Tree.toText?
             width := ← (field "date_interval").required Wire.ofTree?
             showCount := ← (field "show_count").required Tree.toBool?
             countField := ← (field "count_field").optional Tree.toText?
             countLabel := ← (field "count_label").optional Tree.toText? }

end GraphSettings

/-! ### Reading a form -/

namespace Form

/-- The truth value of a word, in letters of any case. -/
def boolOfWord? (s : String) : Option Bool :=
  let word := String.ofList (Text.lower s.toList)
  if word ∈ ["true", "yes", "t", "y", "1"] then some true
  else if word ∈ ["false", "no", "f", "n", "0"] then some false
  else none

/-- The truth value of a setting; a missing one is false. -/
def bool (key : SettingKey) : Option Value → Except Fault Bool
  | none | some .null => .ok false
  | some (.bool b) => .ok b
  | some (.string s) =>
    match boolOfWord? s with
    | some b => .ok b
    | none => .error (.setting key .notBoolean)
  | some _ => .error (.setting key .notBoolean)

/-- The text of a setting; an empty one is none. -/
def text? : Option Value → Option String
  | some (.string s) => if s = "" then none else some s
  | _ => none

/-- The field that a setting names, which must be a known one. -/
def field (key : SettingKey) (known : List String) (value : Option Value) :
    Except Fault (Option String) :=
  match text? value with
  | none => .ok none
  | some name =>
    if name ∈ known then .ok (some name) else .error (.setting key (.notAllowed name))

/-- The bucket width that a setting names, which must be there. -/
def width : Option Value → Except Fault BucketWidth
  | none | some .null => .error (.setting .dateInterval .missing)
  | some (.string s) =>
    if s = "" then .error (.setting .dateInterval .missing) else BucketWidth.ofName s
  | some v => .error (.setting .dateInterval (.notAllowed v.compact))

/-- The settings of a form, where the known fields are given. -/
def settings (form : Object) (known : List String) : Except Fault GraphSettings := do
  let width ← width (form.find? "date_interval")
  let showDate ← bool .showDate (form.find? "show_date")
  let dateField ← field .dateField known (form.find? "date_field")
  let showCount ← bool .showCount (form.find? "show_count")
  let countField ← field .countField known (form.find? "count_field")
  return { showDate, dateField, width, showCount, countField
           countLabel := text? (form.find? "count_label") }

end Form

end PlotAnnotation
