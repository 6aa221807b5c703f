import PlotAnnotation.Arithmetic
import PlotAnnotation.Decimal.Binary64

/-!
# Decimals and doubles

A `Decimal` is an integer times a power of ten.  `Decimal.bits` reads one: it is the magnitude
nearest to it.  `shortest` goes the other way: of the decimals that read back as a given magnitude
it takes one with the fewest digits, and of those one nearest to the value.

The search looks at one grid of decimals after the other, from one digit to seventeen.  On each grid
only the two neighbours of the value matter, since the decimals that read back as it form an
interval around it.  Whether a neighbour is in the interval is not computed: it is read.
-/

namespace PlotAnnotation

open scoped Arithmetic

/-- The number `coefficient * 10 ^ exponent`. -/
structure Decimal where
  coefficient : Nat
  exponent : Int
deriving DecidableEq, Repr

/-- Which of two equally near decimals is taken: the greater, or the one with the even digit. -/
inductive Tie where
  | up
  | even
deriving DecidableEq, Repr

namespace Decimal

open Binary64

/-- The magnitude nearest to a decimal.  Decimals far out of range are not worked out: from
`10 > 8` follows that they are too large, or so small that zero is nearest. -/
def bits (d : Decimal) : Nat :=
  if d.coefficient = 0 then 0
  else if 0 ≤ d.exponent ∧ 1100 < d.coefficient.log2 + 3 * d.exponent then infinityBits
  else if d.exponent < 0 ∧ d.coefficient.log2 + 1 + 3 * d.exponent < -1100 then 0
  else nearestBits (d.coefficient * 10 ^ d.exponent.toNat) (10 ^ (-d.exponent).toNat)

/-- The magnitude that a decimal rounds to is at most the infinity. -/
theorem bits_le (d : Decimal) : d.bits ≤ infinityBits := by
  unfold bits
  split
  · exact Nat.zero_le _
  split
  · exact Nat.le_refl _
  split
  · exact Nat.zero_le _
  · exact nearestBits_le _ _

/-- The double nearest to a decimal, with a sign. -/
def toFloat (negative : Bool) (d : Decimal) : Float :=
  ofMagnitude negative d.bits d.bits_le

/-- How many digits a number has; none for zero. -/
def digitCount (n : Nat) : Nat :=
  if n = 0 then 0 else (Nat.toDigits 10 n).length

/-- The greatest `e` with `10 ^ e ≤ num / den`, for positive integers. -/
def floorLog10 (num den : Nat) : Int :=
  if den ≤ num then (digitCount (num / den) : Int) - 1
  else -(digitCount ((num + den - 1) / num - 1) : Int)

/-- Of the two neighbours of `num / den` on the grid of step `10 ^ e`, the one that reads back as
`bits`; if both do, the nearer, and at equal distance as `tie` says. -/
def onGrid (tie : Tie) (bits num den : Nat) (e : Int) : Option Decimal :=
  let num := num * 10 ^ (-e).toNat
  let den := den * 10 ^ e.toNat
  let floor := num / den
  let lower : Decimal := ⟨floor, e⟩
  let upper : Decimal := ⟨floor + 1, e⟩
  if lower.bits = bits then
    if upper.bits = bits then
      if 2 * num < (2 * floor + 1) * den then some lower
      else if (2 * floor + 1) * den < 2 * num then some upper
      else if tie = .even ∧ floor % 2 = 0 then some lower
      else some upper
    else some lower
  else if upper.bits = bits then some upper
  else none

/-- What is found on a grid reads back. -/
theorem bits_of_onGrid {tie : Tie} {bits num den : Nat} {e : Int} {d : Decimal}
    (h : onGrid tie bits num den e = some d) : d.bits = bits := by
  grind [onGrid]

/-- A magnitude with all its digits. -/
def exact (bits : Nat) : Decimal :=
  ⟨significand bits * 2 ^ (Binary64.exponent bits).toNat * 5 ^ (-Binary64.exponent bits).toNat,
    min 0 (Binary64.exponent bits)⟩

/-- The shortest decimal that reads back as a positive magnitude. -/
def shortest (tie : Tie) (bits : Nat) : Decimal :=
  let num := numerator bits
  let den := denominator bits
  let top := floorLog10 num den
  ((List.range 17).findSome? fun n : Nat => onGrid tie bits num den (top - n)).getD (exact bits)

end Decimal

end PlotAnnotation
