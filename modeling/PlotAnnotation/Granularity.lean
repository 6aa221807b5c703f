import PlotAnnotation.Fault
import PlotAnnotation.Json.Wire

/-!
# Granularity of date labels

How fine a date label is: the year alone, the month with it, or the whole date.  A granularity is
written by its name.  A name that is not known either means the whole date, where any name may
come, or is a fault.
-/

namespace PlotAnnotation

/-- The finest field that a date label shows. -/
inductive Granularity where
  | year
  | month
  | day
deriving DecidableEq, Repr

namespace Granularity

/-- All granularities, coarsest first. -/
def all : List Granularity := [year, month, day]

/-- The name of a granularity. -/
def name : Granularity → String
  | year => "year"
  | month => "month"
  | day => "day"

/-- How many granularities are coarser. -/
def rank : Granularity → Nat
  | year => 0
  | month => 1
  | day => 2

/-- The granularity with exactly this name. -/
def ofName? (s : String) : Option Granularity :=
  all.find? (·.name == s)

/-- The granularity with exactly this name, or a fault that names it. -/
def ofName (s : String) : Except Fault Granularity :=
  match ofName? s with
  | some g => .ok g
  | none => .error (.granularity s)

instance : Json.Wire Granularity where
  toValue g := .string g.name
  ofTree? t := t.toName?.bind ofName?

@[simp] theorem ofName?_name (g : Granularity) : ofName? g.name = some g := by
  cases g <;> decide

end Granularity

end PlotAnnotation
