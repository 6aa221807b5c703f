import PlotAnnotation.Arithmetic
import PlotAnnotation.Decimal.Shortest
import PlotAnnotation.Json.Value

/-!
# Numerals of JSON

A numeral is an optional minus sign, whole digits without leading zeros, and optionally a fraction
and an exponent.  One without fraction and exponent that fits 64 bits is an integer; all others are
read as doubles, rounded to nearest.  `-0` is the double.  A numeral that rounds to infinity is well
formed and has no value.
-/

namespace PlotAnnotation.Json

open scoped Arithmetic

/-- A numeral, taken apart. -/
structure Numeral where
  negative : Bool
  whole : List Char
  /-- The digits after the point. -/
  fraction : Option (List Char)
  /-- Whether the exponent is negative, and its digits. -/
  exponent : Option (Bool × List Char)
deriving DecidableEq, Repr

namespace Numeral

/-- The digits at the front, at least one, and the rest. -/
def digits (cs : List Char) : Option (List Char × List Char) :=
  let ds := cs.takeWhile Char.isDigit
  if ds = [] then none else some (ds, cs.dropWhile Char.isDigit)

/-- The minus sign, if there is one, and the rest. -/
def readSign : List Char → Bool × List Char
  | '-' :: cs => (true, cs)
  | cs => (false, cs)

/-- The fraction, if a point comes. -/
def readFraction : List Char → Option (Option (List Char) × List Char)
  | '.' :: cs => (digits cs).map fun (ds, rest) => (some ds, rest)
  | cs => some (none, cs)

/-- The sign of an exponent and the rest. -/
def readExponentSign : List Char → Bool × List Char
  | '-' :: cs => (true, cs)
  | '+' :: cs => (false, cs)
  | cs => (false, cs)

/-- The exponent, if its letter comes. -/
def readExponent : List Char → Option (Option (Bool × List Char) × List Char)
  | c :: cs =>
    if c = 'e' ∨ c = 'E' then
      let (negative, rest) := readExponentSign cs
      (digits rest).map fun (ds, rest) => (some (negative, ds), rest)
    else some (none, c :: cs)
  | [] => some (none, [])

/-- Reads a whole text as a numeral. -/
def ofChars? (cs : List Char) : Option Numeral := do
  let (negative, cs) := readSign cs
  let (whole, cs) ← digits cs
  let (fraction, cs) ← readFraction cs
  let (exponent, cs) ← readExponent cs
  if cs = [] ∧ (whole.head? = some '0' → whole.length = 1) then
    return { negative, whole, fraction, exponent }
  else none

/-- All digits as one integer. -/
def coefficient (n : Numeral) : Nat :=
  Nat.ofDigitChars 10 (n.whole ++ n.fraction.getD []) 0

/-- The power of ten that the integer of all digits is multiplied by. -/
def scale (n : Numeral) : Int :=
  let written : Int := match n.exponent with
    | none => 0
    | some (negative, ds) =>
      let e : Int := Nat.ofDigitChars 10 ds 0
      if negative then -e else e
  written - (n.fraction.getD []).length

/-- The nearest double, if it is finite.  That a decimal is rounded to the nearest double is an
assumption about the reader of JSON: a reader that rounds the digits and the power of ten first, and
then their product, can miss it by one in the last place. -/
def float? (n : Numeral) : Option Number :=
  let x := Decimal.toFloat n.negative ⟨n.coefficient, n.scale⟩
  if h : x.isFinite = true then some (.float x h) else none

/-- The number that a numeral stands for. -/
def value? (n : Numeral) : Option Number :=
  let i : Int := if n.negative then -n.coefficient else n.coefficient
  if n.fraction = none ∧ n.exponent = none ∧ ¬(n.negative ∧ n.coefficient = 0) then
    if h : -2 ^ 63 ≤ i ∧ i < 2 ^ 64 then some (.int i h.1 h.2) else n.float?
  else n.float?

end Numeral

end PlotAnnotation.Json
