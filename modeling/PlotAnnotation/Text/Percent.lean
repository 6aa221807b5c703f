/-!
# Percent escapes

An octet may be written as `%` and two hexadecimal digits, of either case.  `decode` undoes that
over octets; a `%` that no two digits follow stands for itself.
-/

namespace PlotAnnotation.Text.Percent

/-- The octet `%`. -/
def percent : UInt8 := 0x25

/-- The value of an octet that is a hexadecimal digit. -/
def hexValue (b : UInt8) : Option Nat :=
  let n := b.toNat
  if 0x30 ≤ n ∧ n ≤ 0x39 then some (n - 0x30)
  else if 0x41 ≤ n ∧ n ≤ 0x46 then some (n - 0x41 + 10)
  else if 0x61 ≤ n ∧ n ≤ 0x66 then some (n - 0x61 + 10)
  else none

/-- The octet that an escape with these two digits stands for. -/
def escaped (high low : UInt8) : Option UInt8 :=
  match hexValue high, hexValue low with
  | some h, some l => some (UInt8.ofNat (16 * h + l))
  | _, _ => none

/-- The octets with every escape replaced by its octet. -/
def decode : List UInt8 → List UInt8
  | b :: h :: l :: rest =>
    if b = percent then
      match escaped h l with
      | some octet => octet :: decode rest
      | none => b :: decode (h :: l :: rest)
    else b :: decode (h :: l :: rest)
  | bs => bs

@[simp] theorem decode_nil : decode [] = [] := rfl

/-- An octet other than `%` is passed on. -/
theorem decode_cons_of_ne {b : UInt8} (h : b ≠ percent) (bs : List UInt8) :
    decode (b :: bs) = b :: decode bs := by
  match bs with
  | [] => rfl
  | [_] => rfl
  | _ :: _ :: _ => simp [decode, h]

end PlotAnnotation.Text.Percent
