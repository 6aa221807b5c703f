import PlotAnnotation.Proofs.Fault.Requirements
import PlotAnnotation.Proofs.Settings.Form

/-!
# Which forms are accepted

A form is told here from the values of its settings alone.  `Allowed` says what a value must be for
each of the five settings that can be refused, and `refusal` says why another value is refused.  A
form is accepted if all five are allowed.  Otherwise it is refused for the first one that is not, in
the order of `checked`, and this is the order of its requirements (`decides_settings`).

The readers differ in what they take for no value.  A switch may be missing or null, the name of a
field may be anything that is no text, and a width must be there.
-/

namespace PlotAnnotation.Form

open Json Requirement

/-! ### Allowed values -/

/-- The names of the widths. -/
def widthNames : List String := ["minute", "hour", "day", "month", "year"]

/-- The words that are read as false. -/
def falseWords : List String := ["false", "no", "f", "n", "0"]

/-- The name of a width. -/
def NamesWidth (v : Option Value) : Prop :=
  ∃ name ∈ widthNames, v = some (.string name)

/-- No value at all, a truth value, or a word for one in letters of any case. -/
def IsSwitch (v : Option Value) : Prop :=
  v = none ∨ v = some .null ∨ (∃ b, v = some (.bool b)) ∨
    ∃ s, v = some (.string s) ∧ String.ofList (Text.lower s.toList) ∈ trueWords ++ falseWords

/-- A text, if the value is one, is empty or the name of a known field. -/
def NamesField (known : List String) (v : Option Value) : Prop :=
  ∀ name, v = some (.string name) → name = "" ∨ name ∈ known

/-- What a value must be for a setting. -/
def Allowed (known : List String) (v : Option Value) : SettingKey → Prop
  | .dateInterval => NamesWidth v
  | .showDate | .showCount => IsSwitch v
  | .dateField | .countField => NamesField known v

/-- Why a name is refused: there is none, or it is not one of those allowed. -/
def nameRefusal : Option Value → SettingFault
  | none | some .null => .missing
  | some (.string s) => if s = "" then .missing else .notAllowed s
  | some v => .notAllowed v.compact

/-- Why a value is refused for a setting. -/
def refusal (v : Option Value) : SettingKey → SettingFault
  | .showDate | .showCount => .notBoolean
  | .dateInterval | .dateField | .countField => nameRefusal v

/-- What is asked of a setting of a form. -/
def requirement (form : Object) (known : List String) (key : SettingKey) : Requirement :=
  ⟨.setting key (refusal (form.find? key.name) key), Allowed known (form.find? key.name) key⟩

/-! ### The readers -/

end PlotAnnotation.Form
