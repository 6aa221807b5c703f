import Mathlib.Tactic.Linarith
import PlotAnnotation.Proofs.Decimal.Order

/-!
# Rounding gives the nearest double

A rational number is rounded to a whole number of units, at most half a unit away.  Every other
magnitude is a whole number of these units too, or lies in a lower binade; then the first magnitude
of the binade that the number is in lies between the two.  So no finite magnitude is nearer to the
number, and where another one is as near, the one that was chosen is even (`round_nearest`).

For doubles this is said of `rational`, the rational number that a finite double is.  A decimal is
read as the double nearest to it (`isNearest_toFloat`), and the integer part of a double is that of
its rational number (`truncate_eq`).
-/

namespace PlotAnnotation.Binary64

/-! ### Whole numbers of units -/

/-- Rounding to integers moves a number by at most a half, and by a half only to an even integer. -/
lemma halfEven_error {q : ℚ} (hq : 0 ≤ q) :
    |(halfEven q : ℚ) - q| ≤ 1 / 2 ∧ (|(halfEven q : ℚ) - q| = 1 / 2 → halfEven q % 2 = 0) := by
  have hlow := Nat.floor_le hq
  have hhigh := Nat.lt_floor_add_one q
  unfold halfEven
  split
  · next hless =>
    have habs : |(⌊q⌋₊ : ℚ) - q| < 1 / 2 := by
      rw [abs_sub_lt_iff]
      constructor <;> linarith
    exact ⟨habs.le, fun h => absurd h habs.ne⟩
  next hless =>
  split
  · next hmore =>
    have habs : |((⌊q⌋₊ + 1 : ℕ) : ℚ) - q| < 1 / 2 := by
      rw [abs_sub_lt_iff]
      push_cast
      constructor <;> linarith
    exact ⟨habs.le, fun h => absurd h habs.ne⟩
  · next hmore =>
    refine ⟨?_, fun _ => by omega⟩
    have hparity : ((⌊q⌋₊ % 2 : ℕ) : ℚ) ≤ 1 := by
      exact_mod_cast Nat.le_of_lt_succ (Nat.mod_lt _ two_pos)
    have hparity' : (0 : ℚ) ≤ ((⌊q⌋₊ % 2 : ℕ) : ℚ) := Nat.cast_nonneg _
    rw [abs_sub_le_iff]
    push_cast
    constructor <;> linarith

/-- No other integer is nearer, and if one is as near, the one that was chosen is even. -/
lemma halfEven_nearest {q : ℚ} (hq : 0 ≤ q) {n : ℕ} (hn : n ≠ halfEven q) :
    |(halfEven q : ℚ) - q| ≤ |(n : ℚ) - q| ∧
      (|(n : ℚ) - q| = |(halfEven q : ℚ) - q| → halfEven q % 2 = 0) := by
  obtain ⟨herror, heven⟩ := halfEven_error hq
  have hapart : (1 : ℚ) ≤ |(n : ℚ) - halfEven q| := by
    have : (1 : ℤ) ≤ |(n : ℤ) - halfEven q| :=
      Int.one_le_abs (sub_ne_zero.2 (by exact_mod_cast hn))
    exact_mod_cast this
  have htriangle : |(n : ℚ) - halfEven q| ≤ |(n : ℚ) - q| + |(halfEven q : ℚ) - q| := by
    rw [abs_sub_comm (halfEven q : ℚ)]
    exact abs_sub_le _ _ _
  constructor
  · linarith
  · intro htie
    exact heven (by linarith)

/-- The value of a magnitude that is put together from its units. -/
lemma value_units {k : ℕ} {u : ℤ} (hu : -1074 ≤ u) (hk : k ≤ 2 ^ 53)
    (hnormal : u = -1074 ∨ 2 ^ 52 ≤ k) : value ((u + 1074).toNat * 2 ^ 52 + k) = k * 2 ^ u := by
  obtain ⟨w, hw⟩ : ∃ w : ℕ, u = w - 1074 := ⟨(u + 1074).toNat, by omega⟩
  have hwidth : (u + 1074).toNat = w := by omega
  rw [hwidth]
  unfold value significand exponent
  rcases lt_or_ge k (2 ^ 52) with hsmall | hlarge
  · obtain rfl : w = 0 := by omega
    have hdiv : (0 * 2 ^ 52 + k) / 2 ^ 52 = 0 := by omega
    rw [hdiv, if_pos (by omega), zero_mul, zero_add]
    congr 2
    omega
  · rcases hk.lt_or_eq with hless | rfl
    · have hdiv : (w * 2 ^ 52 + k) / 2 ^ 52 = w + 1 := by omega
      have hmod : 2 ^ 52 + (w * 2 ^ 52 + k) % 2 ^ 52 = k := by omega
      rw [hdiv, if_neg (by omega), hmod]
      congr 2
      omega
    · -- all units of two binades are the first magnitude of the next
      have hdiv : (w * 2 ^ 52 + 2 ^ 53) / 2 ^ 52 = w + 2 := by omega
      have hmod : 2 ^ 52 + (w * 2 ^ 52 + 2 ^ 53) % 2 ^ 52 = 2 ^ 52 := by omega
      have hexponent : ((max (w + 2) 1 : ℕ) : ℤ) - 1075 = u + 1 := by omega
      rw [hdiv, if_neg (by omega), hmod, hexponent, zpow_add_one₀ two_ne_zero]
      push_cast
      ring

/-- A finite magnitude is a whole number of the units that a number is rounded to, or it is less
than the first magnitude of the number's binade, which the number is not. -/
lemma value_cases {q : ℚ} (hq : 0 < q) (b : ℕ) :
    (∃ n : ℕ, value b = n * 2 ^ unit q) ∨
      (value b < 2 ^ 52 * 2 ^ unit q ∧ 2 ^ 52 * 2 ^ unit q ≤ q) := by
  rcases le_or_gt (unit q) (exponent b) with hle | hlt
  · refine .inl ⟨significand b * 2 ^ (exponent b - unit q).toNat, ?_⟩
    have hsplit : exponent b = ((exponent b - unit q).toNat : ℤ) + unit q := by omega
    unfold value
    conv_lhs => rw [hsplit, zpow_add₀ two_ne_zero, zpow_natCast]
    push_cast
    ring
  · have hmin : -1074 ≤ exponent b := by
      unfold exponent
      omega
    have hsignificand : (significand b : ℚ) < 2 ^ 53 := by
      have : significand b < 2 ^ 53 := by
        unfold significand
        split <;> omega
      exact_mod_cast this
    refine .inr ⟨?_, ?_⟩
    · calc value b < 2 ^ 53 * 2 ^ exponent b :=
            mul_lt_mul_of_pos_right hsignificand (two_zpow_pos _)
        _ ≤ 2 ^ 53 * 2 ^ (unit q - 1) :=
            mul_le_mul_of_nonneg_left (zpow_le_zpow_right₀ (by norm_num) (by omega)) (by norm_num)
        _ = 2 ^ 52 * 2 ^ unit q := by
            rw [zpow_sub_one₀ two_ne_zero]
            ring
    · have hlog : 52 + unit q = Int.log 2 q := by
        unfold unit at hlt ⊢
        omega
      calc (2 : ℚ) ^ 52 * 2 ^ unit q = 2 ^ (52 + unit q) := by
            rw [zpow_add₀ two_ne_zero]
            norm_num
        _ = 2 ^ Int.log 2 q := by rw [hlog]
        _ ≤ q := by exact_mod_cast Int.zpow_log_le_self one_lt_two hq

/-- Distances can be measured in units. -/
lemma abs_mul_unit_sub (q r : ℚ) :
    |r * 2 ^ unit q - q| = |r - q / 2 ^ unit q| * 2 ^ unit q := by
  have hunit := two_zpow_pos (unit q)
  rw [← abs_of_pos hunit, ← abs_mul, abs_of_pos hunit, sub_mul, div_mul_cancel₀ _ hunit.ne']

/-- The value of the magnitude that a number is rounded to, in units of the number. -/
lemma value_round {q : ℚ} (hq : 0 < q) (h : round q < infinityBits) :
    value (round q) = halfEven (q / 2 ^ unit q) * 2 ^ unit q ∧
      round q % 2 = halfEven (q / 2 ^ unit q) % 2 := by
  have hround := round_of_pos hq
  have hbits : round q = (unit q + 1074).toNat * 2 ^ 52 + halfEven (q / 2 ^ unit q) := by omega
  have hmin : -1074 ≤ unit q := le_max_left _ _
  refine ⟨?_, by omega⟩
  rw [hbits]
  refine value_units hmin (halfEven_div_unit_le q) ?_
  rcases hmin.eq_or_lt with heq | hlt
  · exact .inl heq.symm
  · exact .inr (le_halfEven_div_unit hq hlt)

/-- The number of units that a number is rounded to is no farther from it than any other. -/
lemma abs_halfEven_le {q : ℚ} (hq : 0 ≤ q) (n : ℕ) :
    |(halfEven q : ℚ) - q| ≤ |(n : ℚ) - q| := by
  rcases eq_or_ne n (halfEven q) with rfl | hne
  · exact le_rfl
  · exact (halfEven_nearest hq hne).1

/-- **Rounding is to nearest, ties to even.**  No finite magnitude is nearer to a number than the
one it is rounded to, and if another value is as near, that magnitude is even. -/
theorem round_nearest {q : ℚ} (hq : 0 ≤ q) (h : round q < infinityBits) (b : ℕ) :
    |value (round q) - q| ≤ |value b - q| ∧
      (value b ≠ value (round q) → |value b - q| = |value (round q) - q| → round q % 2 = 0) := by
  rcases hq.eq_or_lt with rfl | hpos
  · have hzero : round 0 = 0 := by simp [round]
    have hvalue : value 0 = 0 := by simp [value, significand]
    rw [hzero, hvalue, sub_self, abs_zero]
    exact ⟨abs_nonneg _, fun _ _ => rfl⟩
  obtain ⟨hvalue, hparity⟩ := value_round hpos h
  have hunit := two_zpow_pos (unit q)
  have hscaled : 0 ≤ q / 2 ^ unit q := div_nonneg hq hunit.le
  rw [hvalue, abs_mul_unit_sub, hparity]
  rcases value_cases hpos b with ⟨n, hn⟩ | ⟨hless, hstart⟩
  · rw [hn, abs_mul_unit_sub]
    refine ⟨mul_le_mul_of_nonneg_right (abs_halfEven_le hscaled n) hunit.le, fun hne htie => ?_⟩
    have hother : n ≠ halfEven (q / 2 ^ unit q) := by
      rintro rfl
      exact hne rfl
    exact (halfEven_nearest hscaled hother).2 (mul_right_cancel₀ hunit.ne' htie)
  · -- the first magnitude of the binade lies between
    have hfirst : |(halfEven (q / 2 ^ unit q) : ℚ) - q / 2 ^ unit q| * 2 ^ unit q ≤
        q - 2 ^ 52 * 2 ^ unit q := by
      calc _ ≤ |((2 ^ 52 : ℕ) : ℚ) - q / 2 ^ unit q| * 2 ^ unit q :=
            mul_le_mul_of_nonneg_right (abs_halfEven_le hscaled _) hunit.le
        _ = |(2 : ℚ) ^ 52 * 2 ^ unit q - q| := by
            rw [abs_mul_unit_sub]
            norm_num
        _ = q - 2 ^ 52 * 2 ^ unit q := by
            rw [abs_sub_comm, abs_of_nonneg (sub_nonneg.2 hstart)]
    have hbelow : |value b - q| = q - value b := by
      rw [abs_sub_comm, abs_of_nonneg (by linarith)]
    rw [hbelow]
    exact ⟨by linarith, fun _ htie => by linarith⟩

/-! ### Doubles -/

/-- The rational number that a finite double is. -/
def rational (x : Float) : ℚ :=
  if isNegative x then -value (magnitude x) else value (magnitude x)

/-- A finite double than which none is nearer to a number.  If another one is as near, it is the
even one. -/
structure IsNearest (x : Float) (q : ℚ) : Prop where
  finite : x.isFinite = true
  le : ∀ y : Float, y.isFinite = true → |rational x - q| ≤ |rational y - q|
  even : ∀ y : Float, y.isFinite = true → rational y ≠ rational x →
    |rational y - q| = |rational x - q| → magnitude x % 2 = 0

lemma value_nonneg (b : ℕ) : 0 ≤ value b :=
  mul_nonneg (Nat.cast_nonneg _) (two_zpow_pos _).le

/-- The distance of a double from a number with a sign: without the signs if they are equal, and
across zero if they are not. -/
lemma abs_rational_sub (x : Float) (negative : Bool) {q : ℚ} (hq : 0 ≤ q) :
    |rational x - (if negative then -q else q)| =
      if isNegative x = negative then |value (magnitude x) - q| else value (magnitude x) + q := by
  have hvalue := value_nonneg (magnitude x)
  unfold rational
  cases isNegative x <;> cases negative
  · rfl
  · simp only [if_true, Bool.false_eq_true, if_false, sub_neg_eq_add]
    exact abs_of_nonneg (by linarith)
  · simp only [if_true, Bool.false_eq_true, if_false, Bool.true_eq_false]
    rw [← neg_add', abs_neg, abs_of_nonneg (by linarith)]
  · simp only [if_true]
    rw [neg_sub_neg, abs_sub_comm]

/-- A double whose magnitude a number is rounded to is the one nearest to the number, with the sign
of the double. -/
theorem isNearest_of_round {x : Float} {q : ℚ} (hq : 0 ≤ q) (h : x.isFinite = true)
    (hmagnitude : magnitude x = round q) : IsNearest x (if isNegative x then -q else q) := by
  have hfinite := (isFinite_iff _).1 h
  have hx := abs_rational_sub x (isNegative x) hq
  rw [if_pos rfl] at hx
  rw [hmagnitude] at hfinite hx
  have hvalue : value 0 = 0 := by simp [value, significand]
  -- a double on the other side of zero is no nearer than zero
  obtain ⟨hzero, hzeroEven⟩ := round_nearest hq hfinite 0
  rw [hvalue, zero_sub, abs_neg, abs_of_nonneg hq] at hzero hzeroEven
  refine ⟨h, fun y _ => ?_, fun y _ hne htie => ?_⟩
  · rw [hx, abs_rational_sub y (isNegative x) hq]
    split
    · exact (round_nearest hq hfinite _).1
    · have := value_nonneg (magnitude y)
      linarith
  · rw [hx, abs_rational_sub y (isNegative x) hq] at htie
    rw [hmagnitude]
    split at htie
    · next hsame =>
      refine (round_nearest hq hfinite _).2 (fun heq => hne ?_) htie
      rw [rational, rational, hsame, hmagnitude, heq]
    · have hnonneg := value_nonneg (magnitude y)
      have hy : value (magnitude y) = 0 := by linarith
      refine hzeroEven (fun heq => hne ?_) (by linarith)
      rw [rational, rational, hy, hmagnitude, ← heq]
      split <;> split <;> simp

/-- A decimal with a sign is read as the double nearest to it. -/
theorem isNearest_toFloat {negative : Bool} {d : Decimal}
    (h : (Decimal.toFloat negative d).isFinite = true) :
    IsNearest (Decimal.toFloat negative d) (if negative then -d.value else d.value) := by
  have hq : 0 ≤ d.value := mul_nonneg (Nat.cast_nonneg _) (zpow_pos (by norm_num) _).le
  have hmagnitude : magnitude (Decimal.toFloat negative d) = round d.value := by
    rw [← d.bits_eq_round]
    exact magnitude_ofMagnitude _
  have hsign : isNegative (Decimal.toFloat negative d) = negative := isNegative_ofMagnitude _
  have hnearest := isNearest_of_round hq h hmagnitude
  rwa [hsign] at hnearest

/-- An integer becomes the double nearest to it. -/
theorem isNearest_ofInt {n : ℤ} (h : (ofInt n).isFinite = true) : IsNearest (ofInt n) n := by
  have hmagnitude : magnitude (ofInt n) = round n.natAbs := by
    rw [ofInt, nearest, magnitude_ofMagnitude, nearestBits_eq_round Nat.one_pos, Nat.cast_one,
      div_one]
  have hsign : isNegative (ofInt n) = decide (n < 0) :=
    isNegative_ofMagnitude (nearestBits_le _ _)
  have hnearest := isNearest_of_round (Nat.cast_nonneg _) h hmagnitude
  have hn : (if isNegative (ofInt n) then -(n.natAbs : ℚ) else n.natAbs) = n := by
    simp only [hsign, decide_eq_true_eq]
    rw [← Int.cast_natCast (n.natAbs)]
    split
    · rw [← Int.cast_neg]
      congr 1
      omega
    · congr 1
      omega
  rwa [hn] at hnearest

namespace IsNearest

variable {x y : Float} {q : ℚ}

/-- A double that is at most a number is at most the double nearest to it. -/
lemma rational_le (h : IsNearest x q) (hy : y.isFinite = true) (hle : rational y ≤ q) :
    rational y ≤ rational x := by
  by_contra hlt
  have hnear := h.le y hy
  rw [abs_sub_comm, abs_of_nonneg (by linarith), abs_sub_comm, abs_of_nonneg (by linarith)]
    at hnear
  linarith

/-- A float that is nearest to a number is at most any float above the number. -/
lemma le_rational (h : IsNearest x q) (hy : y.isFinite = true) (hle : q ≤ rational y) :
    rational x ≤ rational y := by
  by_contra hlt
  have hnear := h.le y hy
  rw [abs_of_nonneg (by linarith), abs_of_nonneg (by linarith)] at hnear
  linarith

end IsNearest

/-! ### The integer part -/

/-- The integer part of a number, toward zero. -/
def towardZero (q : ℚ) : ℤ :=
  if 0 ≤ q then ⌊q⌋ else ⌈q⌉

/-- The value of a magnitude as a quotient of integers. -/
lemma value_eq_div (b : ℕ) : value b = (numerator b : ℚ) / denominator b := by
  unfold value numerator denominator
  rw [zpow_eq_div 2]
  push_cast
  ring

/-- Dividing the numerator by the denominator cuts off the fraction of the value. -/
lemma numerator_div_denominator (b : ℕ) : numerator b / denominator b = ⌊value b⌋₊ := by
  rw [value_eq_div, Nat.floor_div_eq_div]

/-- The integer part of a double is that of its rational number. -/
theorem truncate_eq (x : Float) : truncate x = towardZero (rational x) := by
  have hvalue := value_nonneg (magnitude x)
  unfold truncate
  simp only [numerator_div_denominator]
  rw [Int.natCast_floor_eq_floor hvalue]
  unfold rational towardZero
  cases isNegative x with
  | false => simp only [Bool.false_eq_true, if_false, if_pos hvalue]
  | true =>
    simp only [if_true]
    split
    · next hnonneg =>
      have hzero : value (magnitude x) = 0 := by linarith
      simp [hzero]
    · rw [Int.ceil_neg]

lemma towardZero_intCast (n : ℤ) : towardZero n = n := by
  unfold towardZero
  split
  · exact Int.floor_intCast n
  · exact Int.ceil_intCast n

/-- Cutting off the fraction keeps the order. -/
lemma towardZero_mono {q r : ℚ} (h : q ≤ r) : towardZero q ≤ towardZero r := by
  unfold towardZero
  split
  · next hq => rw [if_pos (hq.trans h)]; exact Int.floor_mono h
  next hq =>
  split
  · next hr => exact (Int.ceil_le.2 (by push_cast; linarith)).trans (Int.floor_nonneg.2 hr)
  · exact Int.ceil_mono h

namespace IsNearest

variable {x y : Float} {n k : ℤ}

/-- Of an integer that is not less than some double's, the integer part of the nearest double is not
less either. -/
lemma le_truncate (h : IsNearest x n) (hy : y.isFinite = true) (hk : rational y = k)
    (hle : k ≤ n) : k ≤ truncate x := by
  have hx := h.rational_le hy (by rw [hk]; exact_mod_cast hle)
  rw [truncate_eq, ← towardZero_intCast k, ← hk]
  exact towardZero_mono hx

/-- The float nearest to a number is cut to at most any integer above that is a float. -/
lemma truncate_le (h : IsNearest x n) (hy : y.isFinite = true) (hk : rational y = k)
    (hle : n ≤ k) : truncate x ≤ k := by
  have hx := h.le_rational hy (by rw [hk]; exact_mod_cast hle)
  rw [truncate_eq, ← towardZero_intCast k, ← hk]
  exact towardZero_mono hx

end IsNearest

/-- Zero is a double. -/
lemma exists_rational_eq_zero : ∃ y : Float, y.isFinite = true ∧ rational y = (0 : ℤ) := by
  have h : 0 ≤ infinityBits := Nat.zero_le _
  refine ⟨ofMagnitude false 0 h, ?_, ?_⟩
  · rw [isFinite_iff, magnitude_ofMagnitude]
    decide
  · rw [rational, isNegative_ofMagnitude, magnitude_ofMagnitude]
    simp [value, significand]

/-- The power of two that the integers of 64 bits with sign end before is a double, and so is its
negative. -/
lemma exists_rational_eq_pow (negative : Bool) : ∃ y : Float, y.isFinite = true ∧
    rational y = (if negative then -2 ^ 63 else 2 ^ 63 : ℤ) := by
  have h : 1086 * 2 ^ 52 ≤ infinityBits := by decide
  have hvalue : value (1086 * 2 ^ 52) = 2 ^ 63 := by
    have hsignificand : significand (1086 * 2 ^ 52) = 2 ^ 52 := by decide
    have hexponent : exponent (1086 * 2 ^ 52) = 11 := by decide
    rw [value, hsignificand, hexponent]
    norm_num
  refine ⟨ofMagnitude negative (1086 * 2 ^ 52) h, ?_, ?_⟩
  · rw [isFinite_iff, magnitude_ofMagnitude]
    decide
  · rw [rational, isNegative_ofMagnitude, magnitude_ofMagnitude, hvalue]
    cases negative <;> norm_num

end PlotAnnotation.Binary64
