import PlotAnnotation.Decimal.Integer
import PlotAnnotation.Decimal.Text

/-!
# What can go wrong

A `Fault` is the cause for which an operation is refused, with what its message names.  The message
of a fault starts with the heading of its kind.
-/

namespace PlotAnnotation

/-- The channels of a color. -/
inductive Channel where
  | red
  | green
  | blue
  | alpha
deriving DecidableEq, Repr

/-- The name of a channel. -/
def Channel.name : Channel → String
  | red => "red"
  | green => "green"
  | blue => "blue"
  | alpha => "alpha"

/-- The settings of a graph view that can be refused. -/
inductive SettingKey where
  | showDate
  | dateField
  | dateInterval
  | showCount
  | countField
deriving DecidableEq, Repr

/-- The name of a setting in a form. -/
def SettingKey.name : SettingKey → String
  | showDate => "show_date"
  | dateField => "date_field"
  | dateInterval => "date_interval"
  | showCount => "show_count"
  | countField => "count_field"

/-- Why a setting is refused. -/
inductive SettingFault where
  /-- There is no value. -/
  | missing
  /-- The value, given as text, is not one of those allowed. -/
  | notAllowed (text : String)
  /-- The value is neither true nor false. -/
  | notBoolean
deriving DecidableEq, Repr

/-- Why a setting is refused, in words. -/
def SettingFault.message : SettingFault → String
  | missing => "Missing value"
  | notAllowed text => "\"" ++ text ++ "\" is not a valid parameter"
  | notBoolean => "Value must a true/false value (ie. true/yes/t/y/1 or false/no/f/n/0)"

/-- The cause for which an operation is refused. -/
inductive Fault where
  /-- A viewport without an area. -/
  | viewport (width height : UInt32)
  /-- A locale table without the fallback language. -/
  | noFallback
  /-- The data point at an index has no value. -/
  | valueNaN (index : Nat)
  /-- A data point at an instant that is no number. -/
  | timestamp (value : Float)
  /-- A size of bar numbers that is not positive. -/
  | barNumberSize
  /-- A channel out of its range. -/
  | channel (channel : Channel)
  /-- A text mark without text. -/
  | emptyText
  /-- A text mark without a place. -/
  | textPlace
  /-- A text mark without a size. -/
  | textSize
  /-- A bucket key that is no date. -/
  | bucketKey (key : String)
  /-- A name that is no granularity. -/
  | granularity (name : String)
  /-- A setting that is refused. -/
  | setting (key : SettingKey) (reason : SettingFault)
  /-- An instant outside the calendar. -/
  | instant (timestamp : Int64)
  /-- A month past the last of the year, counted from 0. -/
  | month (month0 : Nat)
  /-- Options that are not JSON. -/
  | optionsText
  /-- JSON that is no options. -/
  | options
  /-- JSON with a version that is no contract. -/
  | contract
  /-- A contract of another version. -/
  | contractVersion (version : UInt32)
  /-- Engine options for bar numbers that are none. -/
  | barNumbers
deriving DecidableEq, Repr

/-- The kinds of faults. -/
inductive FaultKind where
  | viewport
  | data
  | granularity
  | setting
  | instant
  | month
  | wire
deriving DecidableEq, Repr

namespace Fault

/-- The kind of a fault. -/
def kind : Fault → FaultKind
  | viewport .. => .viewport
  | noFallback | valueNaN _ | timestamp _ | barNumberSize | channel _ | emptyText | textPlace
  | textSize | bucketKey _ => .data
  | granularity _ => .granularity
  | setting .. => .setting
  | instant _ => .instant
  | month _ => .month
  | optionsText | options | contract | contractVersion _ | barNumbers => .wire

/-- The text of a double that is not finite. -/
def nonFiniteText (x : Float) : String :=
  if x.isNaN then "NaN" else if x < 0 then "-inf" else "inf"

/-- What a fault says after the heading of its kind. -/
def detail : Fault → String
  | viewport width height =>
    "width=" ++ naturalText width.toNat ++ ", height=" ++ naturalText height.toNat
  | noFallback => "locale table must contain the `en` fallback entry"
  | valueNaN index => "data point " ++ naturalText index ++ " has a NaN value"
  | timestamp value => "data point timestamp must be finite, got " ++ nonFiniteText value
  | barNumberSize => "bar numbers `font_size_px` must be finite and > 0"
  | channel c => "color channel `" ++ c.name ++ "` must be finite and in [0, 1]"
  | emptyText => "text primitive must not be empty"
  | textPlace => "text coordinates must be finite"
  | textSize => "font size must be finite and > 0"
  | bucketKey key => "cannot parse date bucket key `" ++ key ++ "`"
  | granularity name => "`" ++ name ++ "`"
  | setting key reason => "`" ++ key.name ++ "`: " ++ reason.message
  | instant t => integerText t.toInt ++ "ms"
  | month month0 => naturalText month0
  | optionsText => "failed to parse graph options json"
  | options => "failed to parse graph options"
  | contract => "failed to parse graph options payload"
  | contractVersion version =>
    "unsupported graph options schema version: " ++ naturalText version.toNat
  | barNumbers => "failed to parse bar numbers options"

end Fault

/-- What the messages of a kind start with. -/
def FaultKind.heading : FaultKind → String
  | viewport => "invalid viewport size: "
  | data => "invalid data: "
  | granularity => "unrecognized date interval: "
  | setting => "invalid setting "
  | instant => "timestamp out of calendar range: "
  | month => "month index out of range: "
  | wire => "serialization failed: "

/-- The message of a fault. -/
def Fault.message (f : Fault) : String :=
  f.kind.heading ++ f.detail

end PlotAnnotation
