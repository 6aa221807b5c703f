import Mathlib.Algebra.Order.Floor.Semifield
import Mathlib.Data.Int.Log
import Mathlib.Data.Rat.Floor
import Mathlib.Tactic.FieldSimp
import Mathlib.Tactic.Linarith
import Mathlib.Tactic.NormNum
import Mathlib.Tactic.Positivity
import Mathlib.Tactic.Ring
import PlotAnnotation.Decimal.Shortest

/-!
# Rounding, as a function of the rational value

Doubles are rounded from quotients of integers and from decimals, with shortcuts for decimals far
out of range.  `round` is the same rounding as a function of a rational number, and the two readers
are shown to compute it (`nearestBits_eq_round`, `bits_eq_round`).  So what is read from a decimal
depends on its value alone, however its digits are split between coefficient and exponent.

`round` leaves the value of a finite double as it is (`round_value`).  Hence the decimal that the
search for the shortest digits ends with reads back, on whichever grid it was found
(`bits_shortest`).
-/

namespace PlotAnnotation.Binary64

/-! ### Powers with integer exponents -/

/-- A power as the quotient of two powers with natural exponents. -/
lemma zpow_eq_div (b : ℚ) (e : ℤ) : b ^ e = b ^ e.toNat / b ^ (-e).toNat := by
  rcases Int.le_total 0 e with h | h
  · obtain ⟨k, rfl⟩ := Int.eq_ofNat_of_zero_le h
    simp
  · obtain ⟨k, hk⟩ := Int.eq_ofNat_of_zero_le (Int.neg_nonneg_of_nonpos h)
    obtain rfl : e = -(k : ℤ) := by omega
    simp

lemma two_zpow_pos (e : ℤ) : (0 : ℚ) < 2 ^ e :=
  zpow_pos (by norm_num) e

/-- A logarithm is determined by the two powers around a number. -/
lemma log_eq {b : ℕ} (hb : 1 < b) {q : ℚ} {e : ℤ} (hlow : (b : ℚ) ^ e ≤ q)
    (hhigh : q < (b : ℚ) ^ (e + 1)) : Int.log b q = e := by
  have hq : 0 < q := (zpow_pos (by positivity) e).trans_le hlow
  have h₁ : e ≤ Int.log b q := (Int.zpow_le_iff_le_log hb hq).1 hlow
  have h₂ : Int.log b q < e + 1 := (Int.lt_zpow_iff_log_lt hb hq).1 hhigh
  omega

/-- The binary logarithm of a quotient is within one of the difference of the logarithms. -/
lemma floorLog2_eq_log {num den : Nat} (hnum : 0 < num) (hden : 0 < den) :
    floorLog2 num den = Int.log 2 ((num : ℚ) / den) := by
  have hdq : (0 : ℚ) < den := by exact_mod_cast hden
  have hn₁ : (2 : ℚ) ^ (num.log2 : ℤ) ≤ num := by
    rw [zpow_natCast]
    exact_mod_cast Nat.log2_self_le hnum.ne'
  have hn₂ : (num : ℚ) < 2 ^ ((num.log2 : ℤ) + 1) := by
    have := Nat.lt_log2_self (n := num)
    exact_mod_cast this
  have hd₁ : (2 : ℚ) ^ (den.log2 : ℤ) ≤ den := by
    rw [zpow_natCast]
    exact_mod_cast Nat.log2_self_le hden.ne'
  have hd₂ : (den : ℚ) < 2 ^ ((den.log2 : ℤ) + 1) := by
    have := Nat.lt_log2_self (n := den)
    exact_mod_cast this
  set e : ℤ := (num.log2 : ℤ) - den.log2 with he
  have hlow : (2 : ℚ) ^ (e - 1) ≤ num / den := by
    rw [le_div_iff₀ hdq]
    calc (2 : ℚ) ^ (e - 1) * den ≤ 2 ^ (e - 1) * 2 ^ ((den.log2 : ℤ) + 1) :=
          mul_le_mul_of_nonneg_left hd₂.le (two_zpow_pos _).le
      _ = 2 ^ (num.log2 : ℤ) := by
          rw [← zpow_add₀ two_ne_zero]
          congr 1
          omega
      _ ≤ num := hn₁
  have hhigh : (num : ℚ) / den < 2 ^ (e + 1) := by
    rw [div_lt_iff₀ hdq]
    calc (num : ℚ) < 2 ^ ((num.log2 : ℤ) + 1) := hn₂
      _ = 2 ^ (e + 1) * 2 ^ (den.log2 : ℤ) := by
          rw [← zpow_add₀ two_ne_zero]
          congr 1
          omega
      _ ≤ 2 ^ (e + 1) * den := mul_le_mul_of_nonneg_left hd₁ (two_zpow_pos _).le
  have htest : den * 2 ^ e.toNat ≤ num * 2 ^ (-e).toNat ↔ (2 : ℚ) ^ e ≤ num / den := by
    have hpos : (0 : ℚ) < 2 ^ (-e).toNat := by positivity
    rw [zpow_eq_div 2, le_div_iff₀ hdq, div_mul_eq_mul_div, div_le_iff₀ hpos,
      mul_comm _ (den : ℚ)]
    exact_mod_cast Iff.rfl
  unfold floorLog2
  simp only [← he]
  split
  · next h => exact (log_eq one_lt_two (htest.1 h) hhigh).symm
  · next h =>
    have hlt := not_le.1 (mt htest.2 h)
    exact (log_eq one_lt_two hlow (by rwa [Int.sub_add_cancel])).symm

/-! ### The rounding -/

/-- A rational number rounded to an integer, a half to the even one. -/
def halfEven (q : ℚ) : Nat :=
  if 2 * (q - ⌊q⌋₊) < 1 then ⌊q⌋₊
  else if 1 < 2 * (q - ⌊q⌋₊) then ⌊q⌋₊ + 1
  else ⌊q⌋₊ + ⌊q⌋₊ % 2

/-- The bits of the magnitude nearest to a rational number. -/
def round (q : ℚ) : Nat :=
  if q ≤ 0 then 0
  else
    let e := max (-1074) (Int.log 2 q - 52)
    min infinityBits ((e + 1074).toNat * 2 ^ 52 + halfEven (q / 2 ^ e))

/-- The value of a finite magnitude. -/
def value (bits : Nat) : ℚ :=
  significand bits * 2 ^ exponent bits

/-- A quotient is rounded by its floor and what remains. -/
lemma roundHalfEven_eq_halfEven {num den : Nat} (hden : 0 < den) :
    roundHalfEven num den = halfEven ((num : ℚ) / den) := by
  have hdq : (0 : ℚ) < den := by exact_mod_cast hden
  have hfloor : ⌊(num : ℚ) / den⌋₊ = num / den := Nat.floor_div_eq_div num den
  have hrest : (num : ℚ) / den - ((num / den : Nat) : ℚ) = ((num % den : Nat) : ℚ) / den := by
    have hsplit : (num : ℚ) = den * ((num / den : Nat) : ℚ) + ((num % den : Nat) : ℚ) := by
      exact_mod_cast (Nat.div_add_mod num den).symm
    rw [eq_div_iff hdq.ne', sub_mul, div_mul_cancel₀ _ hdq.ne']
    linarith
  have hlt : 2 * (((num % den : Nat) : ℚ) / den) < 1 ↔ 2 * (num % den) < den := by
    rw [← mul_div_assoc, div_lt_one hdq]
    exact_mod_cast Iff.rfl
  have hgt : 1 < 2 * (((num % den : Nat) : ℚ) / den) ↔ den < 2 * (num % den) := by
    rw [← mul_div_assoc, one_lt_div hdq]
    exact_mod_cast Iff.rfl
  simp only [roundHalfEven, halfEven, hfloor, hrest, hlt, hgt]

/-- A quotient is rounded by its value. -/
lemma nearestBits_eq_round {num den : Nat} (hden : 0 < den) :
    nearestBits num den = round ((num : ℚ) / den) := by
  rcases Nat.eq_zero_or_pos num with rfl | hnum
  · simp [round]
  have hq : ¬((num : ℚ) / den ≤ 0) := by
    have : (0 : ℚ) < (num : ℚ) / den := by positivity
    exact not_le.2 this
  unfold nearestBits round
  rw [if_neg hnum.ne', if_neg hq]
  simp only [unitExponent, floorLog2_eq_log hnum hden]
  set e := max (-1074) (Int.log 2 ((num : ℚ) / den) - 52)
  have hscaled : ((num * 2 ^ (-e).toNat : Nat) : ℚ) / (den * 2 ^ e.toNat : Nat) =
      (num : ℚ) / den / 2 ^ e := by
    rw [zpow_eq_div 2]
    push_cast
    field_simp
  rw [roundHalfEven_eq_halfEven (by positivity), hscaled]

/-- A quotient of at least a natural number is rounded to no less. -/
lemma le_halfEven {q : ℚ} {n : Nat} (h : n ≤ q) : n ≤ halfEven q := by
  have hfloor : n ≤ ⌊q⌋₊ := Nat.le_floor h
  unfold halfEven
  split
  · exact hfloor
  split
  · omega
  · omega

/-- A natural number is rounded to itself. -/
lemma halfEven_natCast (n : Nat) : halfEven (n : ℚ) = n := by
  simp [halfEven]

/-- What is too large for a double is rounded to infinity. -/
lemma round_of_le {q : ℚ} (h : 2 ^ (1024 : ℤ) ≤ q) : round q = infinityBits := by
  have hq : 0 < q := (two_zpow_pos _).trans_le h
  have hlog : 1024 ≤ Int.log 2 q :=
    (Int.zpow_le_iff_le_log one_lt_two hq).1 (by rwa [Nat.cast_ofNat])
  have hscaled : ((2 ^ 52 : Nat) : ℚ) ≤ q / 2 ^ (Int.log 2 q - 52) := by
    rw [le_div_iff₀ (two_zpow_pos _), Nat.cast_pow, Nat.cast_ofNat, ← zpow_natCast,
      ← zpow_add₀ two_ne_zero]
    have := Int.zpow_log_le_self one_lt_two hq
    convert this using 2
    · norm_num
    · push_cast
      omega
  have hsig := le_halfEven hscaled
  unfold round
  rw [if_neg (not_le.2 hq)]
  simp only [max_eq_right (show -1074 ≤ Int.log 2 q - 52 by omega)]
  unfold infinityBits
  omega

/-- What is too small for a double is rounded to zero. -/
lemma round_of_lt {q : ℚ} (hq : 0 < q) (h : q < 2 ^ (-1075 : ℤ)) : round q = 0 := by
  have hlog : Int.log 2 q < -1075 :=
    (Int.lt_zpow_iff_log_lt one_lt_two hq).1 (by rwa [Nat.cast_ofNat])
  have hsmall : 2 * (q / 2 ^ (-1074 : ℤ)) < 1 := by
    rw [← mul_div_assoc, div_lt_one (two_zpow_pos _)]
    calc 2 * q < 2 * 2 ^ (-1075 : ℤ) := by linarith
      _ = 2 ^ (1 + -1075 : ℤ) := (zpow_one_add₀ two_ne_zero _).symm
  have hfloor : ⌊q / 2 ^ (-1074 : ℤ)⌋₊ = 0 := by
    rw [Nat.floor_eq_zero]
    linarith
  have hzero : halfEven (q / 2 ^ (-1074 : ℤ)) = 0 := by
    unfold halfEven
    rw [hfloor, Nat.cast_zero, sub_zero, if_pos hsmall]
  unfold round
  rw [if_neg (not_le.2 hq)]
  simp only [max_eq_left (show Int.log 2 q - 52 ≤ -1074 by omega), hzero]
  rfl

/-! ### Finite magnitudes -/

/-- A whole number of units in the right binade is rounded to itself. -/
lemma round_mul_two_zpow {n : Nat} {e : ℤ} (hpos : 0 < n) (hlt : n < 2 ^ 53) (he : -1074 ≤ e)
    (hnormal : e = -1074 ∨ 2 ^ 52 ≤ n) :
    round (n * 2 ^ e) = min infinityBits ((e + 1074).toNat * 2 ^ 52 + n) := by
  have hn : (0 : ℚ) < n := by exact_mod_cast hpos
  have hq : (0 : ℚ) < n * 2 ^ e := mul_pos hn (two_zpow_pos e)
  have hhigh : Int.log 2 ((n : ℚ) * 2 ^ e) < e + 53 := by
    refine (Int.lt_zpow_iff_log_lt one_lt_two hq).1 ?_
    have hlt' : (n : ℚ) < 2 ^ (53 : ℤ) := by exact_mod_cast hlt
    push_cast
    rw [add_comm e, zpow_add₀ two_ne_zero]
    exact mul_lt_mul_of_pos_right hlt' (two_zpow_pos e)
  have hunit : max (-1074) (Int.log 2 ((n : ℚ) * 2 ^ e) - 52) = e := by
    rcases hnormal with rfl | hnormal
    · omega
    · have hlow : e + 52 ≤ Int.log 2 ((n : ℚ) * 2 ^ e) := by
        refine (Int.zpow_le_iff_le_log one_lt_two hq).1 ?_
        have hle : (2 : ℚ) ^ (52 : ℤ) ≤ n := by exact_mod_cast hnormal
        push_cast
        rw [add_comm e, zpow_add₀ two_ne_zero]
        exact mul_le_mul_of_nonneg_right hle (two_zpow_pos e).le
      omega
  unfold round
  rw [if_neg (not_le.2 hq)]
  simp only [hunit, mul_div_cancel_right₀ (n : ℚ) (two_zpow_pos e).ne', halfEven_natCast]

/-- The value of a finite magnitude is rounded to that magnitude. -/
lemma round_value {bits : Nat} (h : bits < infinityBits) : round (value bits) = bits := by
  unfold infinityBits at h
  unfold value significand exponent
  split
  · next hlt =>
    rcases Nat.eq_zero_or_pos bits with rfl | hpos
    · simp [round]
    · have hzero : bits / 2 ^ 52 = 0 := Nat.div_eq_of_lt hlt
      rw [hzero, round_mul_two_zpow hpos (by omega) (by omega) (.inl (by omega))]
      unfold infinityBits
      omega
  · next hge =>
    rw [round_mul_two_zpow (by omega) (by omega) (by omega) (.inr (by omega))]
    unfold infinityBits
    omega

end PlotAnnotation.Binary64

namespace PlotAnnotation.Decimal

open Binary64

/-! ### Decimals -/

/-- The value of a decimal. -/
def value (d : Decimal) : ℚ :=
  d.coefficient * 10 ^ d.exponent

/-- A decimal is read by its value. -/
theorem bits_eq_round (d : Decimal) : d.bits = Binary64.round d.value := by
  obtain ⟨c, e⟩ := d
  unfold bits value
  split
  · next hzero =>
    simp only at hzero
    simp [hzero, Binary64.round]
  next hc =>
  simp only at hc ⊢
  have hpos : (0 : ℚ) < c := by exact_mod_cast Nat.pos_of_ne_zero hc
  have hq : (0 : ℚ) < c * 10 ^ e := mul_pos hpos (zpow_pos (by norm_num) e)
  have hpow : ∀ k : ℤ, (2 : ℚ) ^ (3 * k) = 8 ^ k := by
    intro k
    rw [zpow_mul]
    norm_num
  split
  · -- ten to the `e` is at least eight to the `e`
    next hlarge =>
    refine (round_of_le ?_).symm
    have hlow : (2 : ℚ) ^ (c.log2 : ℤ) ≤ c := by
      rw [zpow_natCast]
      exact_mod_cast Nat.log2_self_le hc
    calc (2 : ℚ) ^ (1024 : ℤ) ≤ 2 ^ ((c.log2 : ℤ) + 3 * e) :=
          zpow_le_zpow_right₀ (by norm_num) (by omega)
      _ = 2 ^ (c.log2 : ℤ) * 8 ^ e := by rw [zpow_add₀ two_ne_zero, hpow]
      _ ≤ c * 10 ^ e := by
          refine mul_le_mul hlow ?_ (zpow_pos (by norm_num) e).le hpos.le
          exact zpow_le_zpow_left₀ hlarge.1 (by norm_num) (by norm_num)
  split
  · -- and at most that where `e` is negative
    next hsmall =>
    refine (round_of_lt hq ?_).symm
    have hhigh : (c : ℚ) < 2 ^ ((c.log2 : ℤ) + 1) := by
      have := Nat.lt_log2_self (n := c)
      exact_mod_cast this
    have hten : (10 : ℚ) ^ e ≤ 8 ^ e := by
      rw [← inv_le_inv₀ (zpow_pos (by norm_num) e) (zpow_pos (by norm_num) e), ← zpow_neg,
        ← zpow_neg]
      exact zpow_le_zpow_left₀ (by omega) (by norm_num) (by norm_num)
    calc (c : ℚ) * 10 ^ e < 2 ^ ((c.log2 : ℤ) + 1) * 8 ^ e :=
          mul_lt_mul hhigh hten (zpow_pos (by norm_num) e) (two_zpow_pos _).le
      _ = 2 ^ ((c.log2 : ℤ) + 1 + 3 * e) := by
          rw [zpow_add₀ two_ne_zero _ (3 * e), hpow]
      _ ≤ 2 ^ (-1075 : ℤ) := zpow_le_zpow_right₀ (by norm_num) (by omega)
  · rw [nearestBits_eq_round (by positivity)]
    congr 1
    rw [zpow_eq_div 10]
    push_cast
    ring

/-- A magnitude with all its digits has the value of the magnitude. -/
lemma value_exact (bits : Nat) : (exact bits).value = Binary64.value bits := by
  unfold exact value Binary64.value
  generalize significand bits = s
  generalize Binary64.exponent bits = e
  rcases Int.le_total 0 e with h | h
  · obtain ⟨k, rfl⟩ := Int.eq_ofNat_of_zero_le h
    simp
  · obtain ⟨k, hk⟩ := Int.eq_ofNat_of_zero_le (Int.neg_nonneg_of_nonpos h)
    obtain rfl : e = -(k : ℤ) := by omega
    have hten : (10 : ℚ) ^ k = 2 ^ k * 5 ^ k := by
      rw [← mul_pow]
      norm_num
    simp only [min_eq_right h, neg_neg, Int.toNat_natCast, zpow_neg, zpow_natCast, hten]
    push_cast
    field_simp
    simp

/-- The digits that are found for a finite magnitude read back as it. -/
theorem bits_shortest (tie : Tie) {bits : Nat} (h : bits < infinityBits) :
    (shortest tie bits).bits = bits := by
  simp only [shortest]
  cases hfound : (List.range 17).findSome? fun n : Nat => onGrid tie bits (numerator bits)
      (denominator bits) (floorLog10 (numerator bits) (denominator bits) - n) with
  | none => rw [Option.getD_none, bits_eq_round, value_exact, round_value h]
  | some d =>
    obtain ⟨n, -, hn⟩ := List.exists_of_findSome?_eq_some hfound
    exact bits_of_onGrid hn

/-! ### Doubles -/

/-- A double is determined by its bits. -/
lemma eq_of_toBits_eq {x y : Float} (h : x.toBits = y.toBits) : x = y := by
  obtain ⟨⟨b, hb⟩⟩ := x
  obtain ⟨⟨c, hc⟩⟩ := y
  obtain rfl : b = c := h
  rfl

/-- A double is read from any decimal that reads as its magnitude. -/
lemma toFloat_eq {x : Float} {d : Decimal} (h : d.bits = magnitude x) :
    toFloat (isNegative x) d = x := by
  refine eq_of_toBits_eq (UInt64.toNat.inj ?_)
  rw [toFloat, toNat_toBits_ofMagnitude, h]
  have hlt := x.toBits.toNat_lt
  unfold magnitude isNegative
  simp only [decide_eq_true_eq]
  split <;> omega

end PlotAnnotation.Decimal
