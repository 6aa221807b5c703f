import PlotAnnotation.Fault

/-!
# Names of months

A language has twelve full names and twelve short ones, from January on.  Four languages are built
in.
-/

namespace PlotAnnotation

/-- The names of the months in one language. -/
structure MonthNames where
  full : Vector String 12
  short : Vector String 12
deriving DecidableEq, Repr

namespace MonthNames

/-- The name at a month's place, or a fault past December. -/
def at? (names : Vector String 12) (month0 : Nat) : Except Fault String :=
  match names[month0]? with
  | some name => .ok name
  | none => .error (.month month0)

/-- The full name of a month. -/
def fullName (names : MonthNames) (month0 : Nat) : Except Fault String :=
  at? names.full month0

/-- The short name of a month. -/
def shortName (names : MonthNames) (month0 : Nat) : Except Fault String :=
  at? names.short month0

/-- English. -/
def english : MonthNames where
  full := #v["January", "February", "March", "April", "May", "June", "July", "August",
    "September", "October", "November", "December"]
  short := #v["Jan", "Feb", "Mar", "Apr", "May", "Jun", "Jul", "Aug", "Sep", "Oct", "Nov", "Dec"]

/-- Spanish. -/
def spanish : MonthNames where
  full := #v["enero", "febrero", "marzo", "abril", "mayo", "junio", "julio", "agosto",
    "septiembre", "octubre", "noviembre", "diciembre"]
  short := #v["ene", "feb", "mar", "abr", "may", "jun", "jul", "ago", "sep", "oct", "nov", "dic"]

/-- French. -/
def french : MonthNames where
  full := #v["janvier", "février", "mars", "avril", "mai", "juin", "juillet", "août",
    "septembre", "octobre", "novembre", "décembre"]
  short := #v["janv.", "févr.", "mars", "avr.", "mai", "juin", "juil.", "août", "sept.", "oct.",
    "nov.", "déc."]

/-- German. -/
def german : MonthNames where
  full := #v["Januar", "Februar", "März", "April", "Mai", "Juni", "Juli", "August",
    "September", "Oktober", "November", "Dezember"]
  short := #v["Jan", "Feb", "Mär", "Apr", "Mai", "Jun", "Jul", "Aug", "Sep", "Okt", "Nov", "Dez"]

/-- A month of the year has a name. -/
theorem at?_of_lt {names : Vector String 12} {month0 : Nat} (h : month0 < 12) :
    at? names month0 = .ok names[month0] := by
  simp [at?, h]

end MonthNames

end PlotAnnotation
