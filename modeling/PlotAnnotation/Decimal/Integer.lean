/-!
# The text of an integer

Digits without leading zeros, after a minus sign where there is one.
-/

namespace PlotAnnotation

/-- The decimal digits of a number. -/
def naturalText (n : Nat) : String :=
  String.ofList (Nat.toDigits 10 n)

/-- The decimal digits of an integer, with its sign if it is negative. -/
def integerText (n : Int) : String :=
  if n < 0 then "-" ++ naturalText n.natAbs else naturalText n.natAbs

/-- A natural number is spelled by its decimal digits. -/
@[simp] theorem toList_naturalText (n : Nat) : (naturalText n).toList = Nat.toDigits 10 n := by
  simp [naturalText]

end PlotAnnotation
