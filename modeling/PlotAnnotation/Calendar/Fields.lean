import PlotAnnotation.Arithmetic
import PlotAnnotation.Calendar.DateTime
import PlotAnnotation.Text.Blank

/-!
# Reading the fields of dates and times

A reader takes what it needs from the front of a text and returns what is left; it is `none` if the
text does not start with what it reads.

Dates and times come in two manners.  In the strict one every field has its full width.  In the
free one a number may have fewer digits and blanks before it; a year may have a sign, and with a
sign any number of digits; and where `gaps` are allowed there may be blanks before a mark as well.
-/

namespace PlotAnnotation.Calendar

open Text
open scoped Arithmetic

/-- The mark `c`. -/
def mark (c : Char) : List Char → Option (List Char)
  | d :: cs => if d = c then some cs else none
  | [] => none

/-- Exactly `width` digits, as a number. -/
def fixedNumber (width : Nat) (cs : List Char) : Option (Nat × List Char) :=
  let digits := cs.take width
  if digits.length = width ∧ digits.all Char.isDigit then
    some (Nat.ofDigitChars 10 digits 0, cs.drop width)
  else none

/-- The digits at the front of a text, as a number. -/
def wholeNumber (cs : List Char) : Option (Nat × List Char) :=
  let digits := cs.takeWhile Char.isDigit
  if digits = [] then none
  else some (Nat.ofDigitChars 10 digits 0, cs.dropWhile Char.isDigit)

/-- At least one digit and at most `width`, as a number. -/
def shortNumber (width : Nat) (cs : List Char) : Option (Nat × List Char) :=
  (wholeNumber (cs.take width)).map fun (n, rest) => (n, rest ++ cs.drop width)

/-- A number of one or two digits, after any blanks. -/
def freeNumber (cs : List Char) : Option (Nat × List Char) :=
  shortNumber 2 (trimStart cs)

/-- A year after any blanks: one to four digits, or a sign and any number of digits. -/
def freeYear (cs : List Char) : Option (Int × List Char) :=
  match trimStart cs with
  | '-' :: cs => (wholeNumber cs).map fun (n, rest) => (-(n : Int), rest)
  | '+' :: cs => (wholeNumber cs).map fun (n, rest) => ((n : Int), rest)
  | cs => (shortNumber 4 cs).map fun (n, rest) => ((n : Int), rest)

/-- The mark `c`, after blanks where there may be gaps. -/
def freeMark (gaps : Bool) (c : Char) (cs : List Char) : Option (List Char) :=
  mark c (if gaps then trimStart cs else cs)

/-- The day of a year, a month counted from 1 and a day, if there is such a day in the calendar. -/
def dayOf? (year : Int) (month day : Nat) : Option Int :=
  if month = 0 then none
  else (DateTime.ofDate? ⟨year, month - 1, day⟩ TimeOfDay.midnight).map DateTime.day

/-- A day as `Y-M-D` in the free manner. -/
def freeDay (gaps : Bool) (cs : List Char) : Option (Int × List Char) := do
  let (year, cs) ← freeYear cs
  let cs ← freeMark gaps '-' cs
  let (month, cs) ← freeNumber cs
  let cs ← freeMark gaps '-' cs
  let (day, cs) ← freeNumber cs
  let n ← dayOf? year month day
  return (n, cs)

/-- A day as `YYYY-MM-DD`. -/
def fixedDay (cs : List Char) : Option (Int × List Char) := do
  let (year, cs) ← fixedNumber 4 cs
  let cs ← mark '-' cs
  let (month, cs) ← fixedNumber 2 cs
  let cs ← mark '-' cs
  let (day, cs) ← fixedNumber 2 cs
  let n ← dayOf? year month day
  return (n, cs)

/-- A fraction of a second in nanoseconds, if a point follows.  Digits past the ninth are passed
over. -/
def fraction : List Char → Option (Nat × List Char)
  | '.' :: cs =>
    let digits := cs.takeWhile Char.isDigit
    if digits = [] then none
    else
      let kept := digits.take 9
      some (Nat.ofDigitChars 10 kept 0 * 10 ^ (9 - kept.length), cs.dropWhile Char.isDigit)
  | cs => some (0, cs)

/-- A time of day as `H:M:S` in the free manner, without a fraction. -/
def freeClock (gaps : Bool) (cs : List Char) : Option ((Nat × Nat × Nat) × List Char) := do
  let (hour, cs) ← freeNumber cs
  let cs ← freeMark gaps ':' cs
  let (minute, cs) ← freeNumber cs
  let cs ← freeMark gaps ':' cs
  let (second, cs) ← freeNumber cs
  return ((hour, minute, second), cs)

/-- A time of day as `HH:MM:SS`, without a fraction. -/
def fixedClock (cs : List Char) : Option ((Nat × Nat × Nat) × List Char) := do
  let (hour, cs) ← fixedNumber 2 cs
  let cs ← mark ':' cs
  let (minute, cs) ← fixedNumber 2 cs
  let cs ← mark ':' cs
  let (second, cs) ← fixedNumber 2 cs
  return ((hour, minute, second), cs)

/-- Hours and minutes of a distance from UTC, as `hh:mm`, in minutes. -/
def zoneDistance (cs : List Char) : Option (Nat × List Char) := do
  let (hours, cs) ← fixedNumber 2 cs
  let cs ← mark ':' cs
  let (minutes, cs) ← fixedNumber 2 cs
  if hours ≤ 23 ∧ minutes ≤ 59 then return (hours * 60 + minutes, cs) else none

/-- A distance from UTC in minutes to the east: `Z`, or a sign with hours and minutes. The minus
sign of mathematics is a sign too. -/
def zone : List Char → Option (Int × List Char)
  | 'Z' :: cs => some (0, cs)
  | 'z' :: cs => some (0, cs)
  | '+' :: cs => (zoneDistance cs).map fun (m, rest) => ((m : Int), rest)
  | '-' :: cs => (zoneDistance cs).map fun (m, rest) => (-(m : Int), rest)
  | '\u2212' :: cs => (zoneDistance cs).map fun (m, rest) => (-(m : Int), rest)
  | _ => none

end PlotAnnotation.Calendar
