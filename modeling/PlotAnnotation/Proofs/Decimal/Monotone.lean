import PlotAnnotation.Proofs.Decimal.Rounding

/-!
# Rounding keeps the order

The greater of two rational numbers is rounded to no smaller magnitude (`round_mono`).  Either both
are rounded to whole numbers of one unit, or the unit of the greater one is larger; then the smaller
number at most fills its binade, and the greater one starts a later binade.

Rounding a power of two within the range gives that power, so whatever is no greater has a finite
double nearest to it.  The integers of 64 bits are far within the range (`isFinite_ofInt`).
-/

namespace PlotAnnotation.Binary64

/-- Rounding to integers moves a number by less than one. -/
lemma floor_le_halfEven (q : ℚ) : ⌊q⌋₊ ≤ halfEven q ∧ halfEven q ≤ ⌊q⌋₊ + 1 := by
  unfold halfEven
  split
  · omega
  split
  · omega
  · omega

/-- Rounding to integers keeps the order. -/
lemma halfEven_mono {q r : ℚ} (h : q ≤ r) : halfEven q ≤ halfEven r := by
  rcases (Nat.floor_le_floor h).lt_or_eq with hlt | heq
  · have hq := (floor_le_halfEven q).2
    have hr := (floor_le_halfEven r).1
    omega
  · -- above the same integer, the remainders are in the same order
    have hrest : 2 * (q - ⌊q⌋₊) ≤ 2 * (r - ⌊r⌋₊) := by
      rw [heq]
      linarith
    unfold halfEven
    rw [heq] at hrest ⊢
    split
    · split
      · omega
      split <;> omega
    · next hq =>
      have hr : ¬2 * (r - ⌊r⌋₊) < 1 := by linarith
      rw [if_neg hr]
      split
      · next hq' =>
        have hr' : 1 < 2 * (r - ⌊r⌋₊) := by linarith
        rw [if_pos hr']
      · split <;> omega

/-- A quotient of at most a natural number is rounded to no more. -/
lemma halfEven_le {q : ℚ} {n : Nat} (h : q ≤ n) : halfEven q ≤ n :=
  (halfEven_mono h).trans (halfEven_natCast n).le

/-- The exponent of the unit that a positive number is rounded to. -/
def unit (q : ℚ) : ℤ :=
  max (-1074) (Int.log 2 q - 52)

/-- A positive number is rounded on the grid of its exponent. -/
lemma round_of_pos {q : ℚ} (hq : 0 < q) :
    round q = min infinityBits ((unit q + 1074).toNat * 2 ^ 52 + halfEven (q / 2 ^ unit q)) := by
  unfold round
  rw [if_neg (not_le.2 hq)]
  rfl

/-- A number has fewer units than two binades have. -/
lemma halfEven_div_unit_le (q : ℚ) : halfEven (q / 2 ^ unit q) ≤ 2 ^ 53 := by
  refine halfEven_le ?_
  have hlt : q < 2 ^ (Int.log 2 q + 1) := Int.lt_zpow_succ_log_self one_lt_two q
  have hle : Int.log 2 q + 1 ≤ 53 + unit q := by
    unfold unit
    omega
  rw [div_le_iff₀ (two_zpow_pos _)]
  calc q ≤ 2 ^ (Int.log 2 q + 1) := hlt.le
    _ ≤ 2 ^ (53 + unit q) := zpow_le_zpow_right₀ (by norm_num) hle
    _ = (2 ^ 53 : Nat) * 2 ^ unit q := by
      rw [zpow_add₀ two_ne_zero]
      norm_num

/-- A number whose unit is not the smallest one has as many units as a binade has. -/
lemma le_halfEven_div_unit {q : ℚ} (hq : 0 < q) (h : -1074 < unit q) :
    2 ^ 52 ≤ halfEven (q / 2 ^ unit q) := by
  refine le_halfEven ?_
  have hlog : 52 + unit q = Int.log 2 q := by
    unfold unit at h ⊢
    omega
  rw [le_div_iff₀ (two_zpow_pos _)]
  calc ((2 ^ 52 : Nat) : ℚ) * 2 ^ unit q = 2 ^ (52 + unit q) := by
        rw [zpow_add₀ two_ne_zero]
        norm_num
    _ = 2 ^ Int.log 2 q := by rw [hlog]
    _ ≤ q := by exact_mod_cast Int.zpow_log_le_self one_lt_two hq

/-- Rounding to magnitudes keeps the order. -/
theorem round_mono {q r : ℚ} (h : q ≤ r) : round q ≤ round r := by
  rcases le_or_gt q 0 with hneg | hq
  · rw [round, if_pos hneg]
    exact Nat.zero_le _
  have hr : 0 < r := hq.trans_le h
  rw [round_of_pos hq, round_of_pos hr]
  refine min_le_min_left _ ?_
  have hunit : unit q ≤ unit r := by
    have hlog := Int.log_mono_right (b := 2) hq h
    unfold unit
    omega
  rcases hunit.lt_or_eq with hlt | heq
  · have hmin : -1074 ≤ unit q := le_max_left _ _
    have hfew := halfEven_div_unit_le q
    have hmany := le_halfEven_div_unit hr (by omega)
    omega
  · rw [heq]
    have hdiv : q / 2 ^ unit r ≤ r / 2 ^ unit r :=
      div_le_div_of_nonneg_right h (two_zpow_pos _).le
    exact Nat.add_le_add_left (halfEven_mono hdiv) _

/-- A natural number up to a power of two far below the greatest double has a finite magnitude
nearest to it. -/
lemma nearestBits_lt {n : Nat} (h : n ≤ 2 ^ 64) : nearestBits n 1 < infinityBits := by
  have hle : ((n : ℚ) / (1 : Nat)) ≤ (2 ^ 52 : Nat) * 2 ^ (12 : ℤ) := by
    have : (n : ℚ) ≤ 2 ^ 64 := by exact_mod_cast h
    norm_num at this ⊢
    exact this
  have hpower := round_mul_two_zpow (n := 2 ^ 52) (e := 12) (by norm_num) (by norm_num)
    (by norm_num) (.inr le_rfl)
  rw [nearestBits_eq_round Nat.one_pos]
  refine (round_mono hle).trans_lt ?_
  rw [hpower]
  unfold infinityBits
  omega

/-- The double nearest to an integer of 64 bits, with or without sign, is finite. -/
theorem isFinite_ofInt {n : Int} (hlow : -2 ^ 64 ≤ n) (hhigh : n ≤ 2 ^ 64) :
    (ofInt n).isFinite = true := by
  rw [isFinite_iff, ofInt, nearest, magnitude_ofMagnitude]
  exact nearestBits_lt (by omega)

end PlotAnnotation.Binary64
