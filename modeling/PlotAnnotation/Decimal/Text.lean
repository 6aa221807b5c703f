import PlotAnnotation.Decimal.Shortest

/-!
# The text of a number

A `NumberFormat` says how the shortest digits of a double are set: for which exponents of the first
digit they are written out in full, whether a whole number keeps a fraction, and which of two
equally near decimals is meant.  All other numbers have a mantissa with one digit before the point
and an exponent with its sign.

Labels, engine options and style sheets each have a format of their own; labels are set here.
-/

namespace PlotAnnotation

/-- How the digits of a finite double are set. -/
structure NumberFormat where
  /-- The exponents that are written out in full; without bounds, all of them. -/
  plain : Option (Int × Int)
  /-- Whether a whole number ends in `.0`. -/
  pointed : Bool
  /-- Which of two equally near decimals is written. -/
  tie : Tie
deriving Repr

namespace NumberFormat

/-- Whether a number whose first digit has exponent `e` is written out in full. -/
def isPlain (f : NumberFormat) (e : Int) : Bool :=
  match f.plain with
  | none => true
  | some (low, high) => low ≤ e && e ≤ high

/-- The digits written out in full, the first one with exponent `e`. -/
def writePlain (f : NumberFormat) (digits : List Char) (e : Int) : List Char :=
  if e < 0 then '0' :: '.' :: (List.replicate (-e - 1).toNat '0' ++ digits)
  else
    let whole := e.toNat + 1
    if digits.length ≤ whole then
      digits ++ List.replicate (whole - digits.length) '0' ++ if f.pointed then ['.', '0'] else []
    else digits.take whole ++ '.' :: digits.drop whole

/-- The digits as a mantissa with an exponent. -/
def writeScientific (digits : List Char) (e : Int) : List Char :=
  let mantissa := match digits with
    | [] => []
    | [d] => [d]
    | d :: rest => d :: '.' :: rest
  mantissa ++ 'e' :: (if e < 0 then '-' else '+') :: Nat.toDigits 10 e.natAbs

/-- Digits without the zeros at their end. -/
def dropZeros (digits : List Char) : List Char :=
  (digits.reverse.dropWhile (· == '0')).reverse

/-- The text of a positive magnitude. -/
def writeMagnitude (f : NumberFormat) (bits : Nat) : List Char :=
  let d := Decimal.shortest f.tie bits
  let all := Nat.toDigits 10 d.coefficient
  let e := d.exponent + all.length - 1
  let digits := dropZeros all
  if f.isPlain e then f.writePlain digits e else writeScientific digits e

/-- The text of a finite double; both zeros have the digit `0`. -/
def write (f : NumberFormat) (x : Float) : List Char :=
  let bits := Binary64.magnitude x
  let text := if bits = 0 then f.writePlain ['0'] 0 else f.writeMagnitude bits
  if Binary64.isNegative x then '-' :: text else text

/-- Numbers in labels: written out in full from a millionth to below `10 ^ 21`. -/
def label : NumberFormat where
  plain := some (-6, 20)
  pointed := false
  tie := .up

end NumberFormat

/-- The text of a number in a label.  Both zeros are `0`. -/
def numberLabel (x : Float) : String :=
  if x.isNaN then "NaN"
  else if x.isInf then if x < 0 then "-Infinity" else "Infinity"
  else if x == 0 then "0"
  else String.ofList (NumberFormat.label.write x)

end PlotAnnotation
