import Mathlib.Data.List.TakeWhile
import PlotAnnotation.Decimal.Text
import PlotAnnotation.Proofs.Decimal.Rounding

/-!
# The digits of a double

A number is written from the shortest digits of its magnitude without zeros at the end, and from the
exponent of the first of them.  This file says which value these digits have where they stand
(`value_shortestDigits`), and that they form a numeral without leading zeros.
-/

namespace PlotAnnotation

/-- Decimal digits, at least one. -/
def IsDigits (cs : List Char) : Prop :=
  cs ≠ [] ∧ ∀ c ∈ cs, c.isDigit = true

/-- The number that digits write. -/
def digitsValue (cs : List Char) : Nat :=
  Nat.ofDigitChars 10 cs 0

/-- Digits put after others multiply their value by the power of ten that they take. -/
@[simp] lemma digitsValue_append (cs ds : List Char) :
    digitsValue (cs ++ ds) = 10 ^ ds.length * digitsValue cs + digitsValue ds := by
  unfold digitsValue
  rw [Nat.ofDigitChars_append, Nat.ofDigitChars_eq_ofDigitChars_zero]

@[simp] lemma digitsValue_zeros (n : Nat) : digitsValue (List.replicate n '0') = 0 := by
  simp [digitsValue]

/-- The digits of a number have it as their value. -/
@[simp] lemma digitsValue_toDigits (n : Nat) : digitsValue (Nat.toDigits 10 n) = n := by
  simp [digitsValue]

@[simp] lemma digitsValue_zero : digitsValue ['0'] = 0 := by
  decide

lemma isDigits_zero : IsDigits ['0'] :=
  ⟨by simp, by simp⟩

/-- A number has digits. -/
lemma isDigits_toDigits (n : Nat) : IsDigits (Nat.toDigits 10 n) :=
  ⟨Nat.toDigits_ne_nil, fun _ => Nat.isDigit_of_mem_toDigits (by decide) (by decide)⟩

/-- Digits with more digits after them are digits. -/
lemma IsDigits.append {cs ds : List Char} (h : IsDigits cs) (hds : ∀ c ∈ ds, c.isDigit = true) :
    IsDigits (cs ++ ds) := by
  refine ⟨by simp [h.1], fun c hc => ?_⟩
  rcases List.mem_append.1 hc with hc | hc
  · exact h.2 c hc
  · exact hds c hc

lemma isDigit_of_mem_zeros {n : Nat} : ∀ c ∈ List.replicate n '0', c.isDigit = true := by
  intro c hc
  rw [List.eq_of_mem_replicate hc]
  rfl

section Scan

variable {ds rest : List Char} (h : ∀ c ∈ ds, c.isDigit = true)
  (hrest : ∀ c, rest.head? = some c → c.isDigit = false)

include h hrest

/-- A scan of digits stops where they stop. -/
lemma takeWhile_isDigit_append : (ds ++ rest).takeWhile Char.isDigit = ds := by
  have hnone : rest.takeWhile Char.isDigit = [] := by
    cases rest with
    | nil => rfl
    | cons c cs => simp [hrest c rfl]
  rw [List.takeWhile_append_of_pos h, hnone, List.append_nil]

/-- A scan of digits leaves what comes after them. -/
lemma dropWhile_isDigit_append : (ds ++ rest).dropWhile Char.isDigit = rest := by
  rw [List.dropWhile_append_of_pos h]
  cases rest with
  | nil => rfl
  | cons c cs => simp [hrest c rfl]

end Scan

/-- The digits of a positive number do not start with a zero. -/
lemma head?_toDigits_ne {n : Nat} (h : 0 < n) : (Nat.toDigits 10 n).head? ≠ some '0' := by
  induction n using Nat.strongRecOn with
  | ind n ih =>
    rw [Nat.toDigits_eq_if (by decide)]
    split
    · next hlt =>
      intro hhead
      have hdigit := Nat.toNat_digitChar_of_lt_ten hlt
      rw [List.head?_cons, Option.some.injEq] at hhead
      rw [hhead] at hdigit
      simp at hdigit
      omega
    · next hge =>
      rw [List.head?_append_of_ne_nil _ Nat.toDigits_ne_nil]
      exact ih _ (by omega) (by omega)

/-! ### Zeros at the end -/

namespace NumberFormat

/-- Digits are what is left of them and the zeros that were dropped. -/
lemma dropZeros_append (digits : List Char) :
    dropZeros digits ++ List.replicate (digits.length - (dropZeros digits).length) '0' =
      digits := by
  have hzeros : digits.reverse.takeWhile (· == '0') =
      List.replicate (digits.reverse.takeWhile (· == '0')).length '0' :=
    List.eq_replicate_iff.2 ⟨rfl, fun c hc => by simpa using List.mem_takeWhile_imp hc⟩
  have hsplit : dropZeros digits ++ (digits.reverse.takeWhile (· == '0')).reverse = digits := by
    unfold dropZeros
    rw [← List.reverse_append, List.takeWhile_append_dropWhile, List.reverse_reverse]
  have hlength : digits.length - (dropZeros digits).length =
      (digits.reverse.takeWhile (· == '0')).length := by
    have := congrArg List.length hsplit
    rw [List.length_append, List.length_reverse] at this
    omega
  rw [hlength, ← List.reverse_replicate, ← hzeros, hsplit]

/-- Digits of a positive number are not all dropped. -/
lemma isDigits_dropZeros {digits : List Char} (h : IsDigits digits)
    (hpos : 0 < digitsValue digits) : IsDigits (dropZeros digits) := by
  have hsplit := dropZeros_append digits
  constructor
  · intro hnil
    rw [hnil, List.nil_append] at hsplit
    rw [← hsplit, digitsValue_zeros] at hpos
    contradiction
  · intro c hc
    refine h.2 c ?_
    rw [← hsplit]
    exact List.mem_append_left _ hc

/-- What is left of digits starts as they did. -/
lemma head?_dropZeros {digits : List Char} (h : dropZeros digits ≠ []) :
    (dropZeros digits).head? = digits.head? := by
  conv_rhs => rw [← dropZeros_append digits]
  rw [List.head?_append_of_ne_nil _ h]

/-! ### The shortest digits -/

variable (f : NumberFormat) (bits : Nat)

/-- The digits that a magnitude is written with. -/
def shortestDigits : List Char :=
  dropZeros (Nat.toDigits 10 (Decimal.shortest f.tie bits).coefficient)

/-- The exponent of the first of these digits. -/
def firstExponent : Int :=
  (Decimal.shortest f.tie bits).exponent +
    (Nat.toDigits 10 (Decimal.shortest f.tie bits).coefficient).length - 1

/-- A magnitude is written plainly or scientifically, by its first exponent. -/
lemma writeMagnitude_eq : f.writeMagnitude bits =
    if f.isPlain (f.firstExponent bits) then
      f.writePlain (f.shortestDigits bits) (f.firstExponent bits)
    else writeScientific (f.shortestDigits bits) (f.firstExponent bits) :=
  rfl

variable {bits}

/-- The shortest decimal of a positive magnitude is positive. -/
lemma coefficient_shortest_pos (hpos : 0 < bits) (hfinite : bits < Binary64.infinityBits) :
    0 < (Decimal.shortest f.tie bits).coefficient := by
  rw [Nat.pos_iff_ne_zero]
  intro hzero
  have hbits := Decimal.bits_shortest f.tie hfinite
  rw [Decimal.bits, if_pos hzero] at hbits
  omega

/-- A finite magnitude that is not zero has digits. -/
lemma isDigits_shortestDigits (hpos : 0 < bits) (hfinite : bits < Binary64.infinityBits) :
    IsDigits (f.shortestDigits bits) := by
  refine isDigits_dropZeros (isDigits_toDigits _) ?_
  rw [digitsValue_toDigits]
  exact coefficient_shortest_pos f hpos hfinite

/-- The digits of a magnitude do not begin with a zero. -/
lemma head?_shortestDigits_ne (hpos : 0 < bits) (hfinite : bits < Binary64.infinityBits) :
    (f.shortestDigits bits).head? ≠ some '0' := by
  rw [shortestDigits, head?_dropZeros (isDigits_shortestDigits f hpos hfinite).1]
  exact head?_toDigits_ne (coefficient_shortest_pos f hpos hfinite)

variable (bits)

/-- The digits have the value of the shortest decimal, if the first has the first exponent. -/
lemma value_shortestDigits :
    (digitsValue (f.shortestDigits bits) : ℚ) *
        10 ^ (f.firstExponent bits + 1 - (f.shortestDigits bits).length) =
      (Decimal.shortest f.tie bits).value := by
  simp only [shortestDigits, firstExponent, Decimal.value]
  generalize (Decimal.shortest f.tie bits).coefficient = c
  generalize (Decimal.shortest f.tie bits).exponent = e
  have hsplit := dropZeros_append (Nat.toDigits 10 c)
  have hlength := congrArg List.length hsplit
  rw [List.length_append, List.length_replicate] at hlength
  have hvalue : c = 10 ^ ((Nat.toDigits 10 c).length - (dropZeros (Nat.toDigits 10 c)).length) *
      digitsValue (dropZeros (Nat.toDigits 10 c)) := by
    have := congrArg digitsValue hsplit
    rw [digitsValue_append, digitsValue_zeros, List.length_replicate, Nat.add_zero,
      digitsValue_toDigits] at this
    exact this.symm
  conv_rhs => rw [hvalue]
  push_cast
  rw [mul_comm ((10 : ℚ) ^ _) (digitsValue _ : ℚ), mul_assoc, ← zpow_natCast,
    ← zpow_add₀ (by norm_num)]
  congr 2
  omega

end NumberFormat

end PlotAnnotation
