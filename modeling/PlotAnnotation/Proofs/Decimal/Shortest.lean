import Mathlib.Tactic.GCongr
import PlotAnnotation.Proofs.Decimal.Nearest

/-!
# The shortest decimal

`Decimal.shortest` searches one grid of decimals after the other and tries only the two neighbours
of the value on each.  This is enough.  The decimals that read back as a magnitude form an interval
around its value, and every decimal with so many digits lies beyond a neighbour on the grid of that
many digits, or on it (`exists_le_grid`, `exists_grid_le`): if it reads back, the neighbour does.

Hence no decimal that reads back has fewer digits than the one that is found, and none of those with
as few is nearer to the value (`isShortest_shortest`).  The search always ends on a grid: with
seventeen digits one neighbour is so near that it reads back (`exists_neighbour_seventeen`).
-/

namespace PlotAnnotation.Decimal

open Binary64

/-- The number can be written with `k` digits, wherever the point is. -/
def FitsIn (k : ℕ) (q : ℚ) : Prop :=
  ∃ (c : ℕ) (e : ℤ), c < 10 ^ k ∧ q = c * 10 ^ e

/-- A decimal that reads back as a magnitude, with the fewest digits there are, and of those with as
few as near to the value as any. -/
structure IsShortest (d : Decimal) (bits : ℕ) : Prop where
  bits_eq : d.bits = bits
  fewest : ∀ d' : Decimal, d'.bits = bits → ∀ k, FitsIn k d'.value → FitsIn k d.value
  nearest : ∀ d' : Decimal, d'.bits = bits → (∀ k, FitsIn k d.value → FitsIn k d'.value) →
    |d.value - Binary64.value bits| ≤ |d'.value - Binary64.value bits|

/-- What fits in some digits fits in more. -/
lemma FitsIn.mono {j k : ℕ} {q : ℚ} (h : FitsIn j q) (hjk : j ≤ k) : FitsIn k q := by
  obtain ⟨c, e, hc, rfl⟩ := h
  exact ⟨c, e, hc.trans_le (Nat.pow_le_pow_right (by norm_num) hjk), rfl⟩

lemma fitsIn_ten_zpow (e : ℤ) : FitsIn 1 (10 ^ e) :=
  ⟨1, e, by norm_num, by simp⟩

lemma ten_zpow_pos (e : ℤ) : (0 : ℚ) < 10 ^ e :=
  zpow_pos (by norm_num) e

/-! ### The exponent of the first digit -/

/-- A number has at most as many digits as the power of ten above it says. -/
lemma digitCount_le_iff {n k : ℕ} : digitCount n ≤ k ↔ n < 10 ^ k := by
  unfold digitCount
  split
  · next hn => simp [hn]
  next hn =>
  cases k with
  | zero =>
    have := Nat.length_toDigits_pos (b := 10) (n := n)
    omega
  | succ k => exact Nat.length_toDigits_le_iff (by norm_num) k.succ_pos

/-- A positive integer lies between the powers of ten with as many digits and with one more. -/
lemma exists_digitCount {n : ℕ} (h : 0 < n) :
    ∃ k, digitCount n = k + 1 ∧ 10 ^ k ≤ n ∧ n < 10 ^ (k + 1) := by
  obtain ⟨k, hk⟩ : ∃ k, digitCount n = k + 1 := by
    refine Nat.exists_eq_succ_of_ne_zero fun hzero => ?_
    have := digitCount_le_iff.1 hzero.le
    omega
  have hlow : ¬n < 10 ^ k := by
    rw [← digitCount_le_iff]
    omega
  exact ⟨k, hk, Nat.not_lt.1 hlow, digitCount_le_iff.1 hk.le⟩

section FirstDigit

variable {num den : ℕ}

/-- The exponent of the first digit is the decimal logarithm.  Of a quotient that is at least one
the first digit is that of its integer part. -/
lemma floorLog10_of_le (hden : 0 < den) (hle : den ≤ num) :
    floorLog10 num den = Int.log 10 ((num : ℚ) / den) := by
  have hdq : (0 : ℚ) < den := by exact_mod_cast hden
  obtain ⟨k, hk, hlow, hhigh⟩ := exists_digitCount (Nat.div_pos hle hden)
  rw [Nat.le_div_iff_mul_le hden] at hlow
  rw [Nat.div_lt_iff_lt_mul hden] at hhigh
  rw [floorLog10, if_pos hle, hk, Nat.cast_succ, add_sub_cancel_right]
  refine (log_eq (by norm_num) ?_ ?_).symm
  · rw [le_div_iff₀ hdq, zpow_natCast]
    exact_mod_cast hlow
  · rw [div_lt_iff₀ hdq, ← Nat.cast_succ, zpow_natCast]
    exact_mod_cast hhigh

/-- Of a quotient less than one, the greatest integer less than the inverse has as many digits as
there are places from the point to the first digit. -/
lemma floorLog10_of_lt (hnum : 0 < num) (hlt : num < den) :
    floorLog10 num den = Int.log 10 ((num : ℚ) / den) := by
  have hdq : (0 : ℚ) < den := by exact_mod_cast hnum.trans hlt
  rw [floorLog10, if_neg (Nat.not_le.2 hlt)]
  set m := (num + den - 1) / num - 1 with hm
  have hfloor := Nat.div_mul_le_self (num + den - 1) num
  have hceil := Nat.lt_div_mul_add (a := num + den - 1) hnum
  have hone : 2 ≤ (num + den - 1) / num := by
    rw [Nat.le_div_iff_mul_le hnum]
    omega
  have hsplit : (num + den - 1) / num = m + 1 := by omega
  rw [hsplit, Nat.add_mul, Nat.one_mul] at hfloor hceil
  obtain ⟨k, hk, hlow, hhigh⟩ := exists_digitCount (n := m) (by omega)
  have hbelow : 10 ^ k * num < den := by
    have := Nat.mul_le_mul_right num hlow
    omega
  have habove : den ≤ 10 ^ (k + 1) * num := by
    have := Nat.mul_le_mul_right num hhigh
    rw [Nat.succ_mul] at this
    omega
  rw [hk]
  refine (log_eq (by norm_num) ?_ ?_).symm
  · rw [le_div_iff₀ hdq, zpow_neg, zpow_natCast, inv_mul_le_iff₀ (by positivity)]
    exact_mod_cast habove
  · have hexponent : -((k + 1 : ℕ) : ℤ) + 1 = -(k : ℤ) := by omega
    rw [div_lt_iff₀ hdq, hexponent, zpow_neg, zpow_natCast, lt_inv_mul_iff₀ (by positivity)]
    exact_mod_cast hbelow

/-- The exponent that is found is the logarithm to the base ten. -/
lemma floorLog10_eq_log (hnum : 0 < num) (hden : 0 < den) :
    floorLog10 num den = Int.log 10 ((num : ℚ) / den) := by
  rcases Nat.lt_or_ge num den with hlt | hle
  · exact floorLog10_of_lt hnum hlt
  · exact floorLog10_of_le hden hle

end FirstDigit

/-- The powers of ten around a positive number. -/
lemma zpow_log_le {q : ℚ} (hq : 0 < q) : (10 : ℚ) ^ Int.log 10 q ≤ q := by
  exact_mod_cast Int.zpow_log_le_self (b := 10) (by norm_num) hq

/-- A number is below the power of ten above its logarithm. -/
lemma lt_zpow_log (q : ℚ) : q < 10 ^ (Int.log 10 q + 1) := by
  exact_mod_cast Int.lt_zpow_succ_log_self (b := 10) (by norm_num) q

/-! ### Decimals beyond a grid -/

section Grid

variable {q : ℚ} {k : ℕ}

/-- A power of ten with the exponent of the grid or a greater one is on the grid. -/
lemma exists_grid_eq {c : ℕ} {e e' : ℤ} (h : e' ≤ e) : ∃ m : ℕ, (m * 10 ^ e' : ℚ) = c * 10 ^ e := by
  refine ⟨c * 10 ^ (e - e').toNat, ?_⟩
  have hsplit : e = ((e - e').toNat : ℤ) + e' := by omega
  conv_rhs => rw [hsplit, zpow_add₀ (by norm_num), zpow_natCast]
  push_cast
  ring

/-- A number with so many digits is on the grid if it has the exponent of `q`, or a greater one. -/
lemma exists_grid_of_fitsIn {r : ℚ} (hr : FitsIn (k + 1) r) (hle : 10 ^ Int.log 10 q ≤ r) :
    ∃ m : ℕ, (m * 10 ^ (Int.log 10 q - k) : ℚ) = r := by
  obtain ⟨c, e, hc, rfl⟩ := hr
  refine exists_grid_eq ?_
  have hlt : (10 : ℚ) ^ Int.log 10 q < 10 ^ ((k + 1 : ℕ) + e : ℤ) := by
    refine hle.trans_lt ?_
    rw [zpow_add₀ (by norm_num), zpow_natCast]
    refine mul_lt_mul_of_pos_right ?_ (ten_zpow_pos e)
    exact_mod_cast hc
  have := (zpow_lt_zpow_iff_right₀ (by norm_num)).1 hlt
  omega

/-- Between a number with so many digits and a greater one there is a place of the grid. -/
lemma exists_le_grid (hq : 0 < q) {r : ℚ} (hr : FitsIn (k + 1) r) (hle : r ≤ q) :
    ∃ m : ℕ, r ≤ m * 10 ^ (Int.log 10 q - k) ∧ (m * 10 ^ (Int.log 10 q - k) : ℚ) ≤ q := by
  rcases le_or_gt (10 ^ Int.log 10 q) r with hge | hlt
  · obtain ⟨m, hm⟩ := exists_grid_of_fitsIn hr hge
    exact ⟨m, hm.ge, hm.le.trans hle⟩
  · -- below the decade of `q`, where that starts
    obtain ⟨m, hm⟩ :=
      exists_grid_of_fitsIn ((fitsIn_ten_zpow (Int.log 10 q)).mono (by omega)) le_rfl
    exact ⟨m, hlt.le.trans hm.ge, hm.le.trans (zpow_log_le hq)⟩

/-- Between a number and a greater one with so many digits there is a place of the grid. -/
lemma exists_grid_le (hq : 0 < q) {r : ℚ} (hr : FitsIn (k + 1) r) (hlt : q < r) :
    ∃ m : ℕ, q < m * 10 ^ (Int.log 10 q - k) ∧ (m * 10 ^ (Int.log 10 q - k) : ℚ) ≤ r := by
  obtain ⟨m, hm⟩ := exists_grid_of_fitsIn hr ((zpow_log_le hq).trans hlt.le)
  exact ⟨m, hlt.trans_le hm.ge, hm.le⟩

end Grid

/-! ### Neighbours on a grid -/

/-- The places of a grid next to a number. -/
def lowerOn (q : ℚ) (e : ℤ) : Decimal :=
  ⟨⌊q / 10 ^ e⌋₊, e⟩

/-- The decimal next above a number on a grid. -/
def upperOn (q : ℚ) (e : ℤ) : Decimal :=
  ⟨⌊q / 10 ^ e⌋₊ + 1, e⟩

section Neighbours

variable {q : ℚ} {e : ℤ} {m : ℕ}

/-- The decimal next below is no greater than the number. -/
lemma value_lowerOn_le (hq : 0 ≤ q) : (lowerOn q e).value ≤ q :=
  (le_div_iff₀ (ten_zpow_pos e)).1 (Nat.floor_le (div_nonneg hq (ten_zpow_pos e).le))

/-- The decimal next above is greater than the number. -/
lemma lt_value_upperOn (q : ℚ) (e : ℤ) : q < (upperOn q e).value := by
  have hlt := (div_lt_iff₀ (ten_zpow_pos e)).1 (Nat.lt_floor_add_one (q / 10 ^ e))
  unfold upperOn value
  exact_mod_cast hlt

/-- The decimals next below and above are a unit of the grid apart. -/
lemma value_upperOn (q : ℚ) (e : ℤ) : (upperOn q e).value = (lowerOn q e).value + 10 ^ e := by
  unfold upperOn lowerOn value
  push_cast
  ring

/-- No decimal of the grid below the number is above the one next below. -/
lemma le_value_lowerOn (h : (m * 10 ^ e : ℚ) ≤ q) : (m * 10 ^ e : ℚ) ≤ (lowerOn q e).value := by
  have hfloor : m ≤ ⌊q / 10 ^ e⌋₊ := Nat.le_floor ((le_div_iff₀ (ten_zpow_pos e)).2 h)
  refine mul_le_mul_of_nonneg_right ?_ (ten_zpow_pos e).le
  exact_mod_cast hfloor

/-- No decimal of the grid above the number is below the one next above. -/
lemma value_upperOn_le (hq : 0 ≤ q) (h : q < m * 10 ^ e) : (upperOn q e).value ≤ m * 10 ^ e := by
  have hfloor : ⌊q / 10 ^ e⌋₊ < m :=
    (Nat.floor_lt (div_nonneg hq (ten_zpow_pos e).le)).2 ((div_lt_iff₀ (ten_zpow_pos e)).2 h)
  refine mul_le_mul_of_nonneg_right ?_ (ten_zpow_pos e).le
  exact_mod_cast hfloor

/-- Either neighbour can be written with as many digits as the grid has.  The upper one may be the
power of ten after them. -/
lemma fitsIn_neighbour {k : ℕ} (hq : 0 ≤ q) {d : Decimal}
    (hd : d = lowerOn q (Int.log 10 q - k) ∨ d = upperOn q (Int.log 10 q - k)) :
    FitsIn (k + 1) d.value := by
  have hpower : ((10 ^ (k + 1) : ℕ) : ℚ) * 10 ^ (Int.log 10 q - k) = 10 ^ (Int.log 10 q + 1) := by
    rw [Nat.cast_pow, Nat.cast_ofNat, ← zpow_natCast, ← zpow_add₀ (by norm_num)]
    congr 1
    omega
  have hfloor : ⌊q / 10 ^ (Int.log 10 q - k)⌋₊ < 10 ^ (k + 1) := by
    rw [Nat.floor_lt (div_nonneg hq (ten_zpow_pos _).le), div_lt_iff₀ (ten_zpow_pos _), hpower]
    exact lt_zpow_log q
  rcases hd with rfl | rfl
  · exact ⟨_, _, hfloor, rfl⟩
  rcases (Nat.succ_le_of_lt hfloor).lt_or_eq with hlt | heq
  · exact ⟨_, _, hlt, rfl⟩
  · have hvalue : (upperOn q (Int.log 10 q - k)).value = 10 ^ (Int.log 10 q + 1) := by
      rw [← hpower, ← heq]
      rfl
    rw [hvalue]
    exact (fitsIn_ten_zpow _).mono (by omega)

end Neighbours

/-! ### What is found on a grid -/

section Found

variable {tie : Tie} {bits num den : ℕ} {e : ℤ}

/-- The quotient that is computed on a grid. -/
lemma grid_scaled (num den : ℕ) (e : ℤ) : (num : ℚ) / den / 10 ^ e =
    ((num * 10 ^ (-e).toNat : ℕ) : ℚ) / (den * 10 ^ e.toNat : ℕ) := by
  rw [zpow_eq_div 10]
  push_cast
  field_simp

/-- Scaling before dividing gives the place on the grid. -/
lemma grid_floor (num den : ℕ) (e : ℤ) :
    num * 10 ^ (-e).toNat / (den * 10 ^ e.toNat) = ⌊(num : ℚ) / den / 10 ^ e⌋₊ := by
  rw [grid_scaled, Nat.floor_div_eq_div]

/-- Twice the quotient lies below the sum of the neighbours exactly if the lower one is nearer, and
above it exactly if the upper one is. -/
lemma grid_lt_iff (num : ℕ) {den : ℕ} (hden : 0 < den) (e : ℤ) :
    let q : ℚ := num / den
    let a := num * 10 ^ (-e).toNat
    let b := den * 10 ^ e.toNat
    (2 * a < (2 * ⌊q / 10 ^ e⌋₊ + 1) * b ↔ q - (lowerOn q e).value < (upperOn q e).value - q) ∧
    ((2 * ⌊q / 10 ^ e⌋₊ + 1) * b < 2 * a ↔ (upperOn q e).value - q < q - (lowerOn q e).value) := by
  intro q a b
  have hb : (0 : ℚ) < b := by
    have : 0 < b := by positivity
    exact_mod_cast this
  have ha : (a : ℚ) * 10 ^ e = q * b := by
    have hscaled : q / 10 ^ e = a / b := grid_scaled num den e
    rw [div_eq_div_iff (ten_zpow_pos e).ne' hb.ne'] at hscaled
    exact hscaled.symm
  have hsum : (2 * (⌊q / 10 ^ e⌋₊ : ℚ) + 1) * 10 ^ e =
      (lowerOn q e).value + (upperOn q e).value := by
    rw [value_upperOn]
    unfold lowerOn value
    ring
  have hleft : (2 * a : ℚ) * 10 ^ e = 2 * q * b := by linarith
  have hright : (2 * (⌊q / 10 ^ e⌋₊ : ℚ) + 1) * b * 10 ^ e =
      ((lowerOn q e).value + (upperOn q e).value) * b := by
    rw [← hsum]
    ring
  constructor
  · rw [← Nat.cast_lt (α := ℚ)]
    push_cast
    rw [← mul_lt_mul_iff_left₀ (ten_zpow_pos e), hleft, hright, mul_lt_mul_iff_left₀ hb]
    constructor <;> intro h <;> linarith
  · rw [← Nat.cast_lt (α := ℚ)]
    push_cast
    rw [← mul_lt_mul_iff_left₀ (ten_zpow_pos e), hleft, hright, mul_lt_mul_iff_left₀ hb]
    constructor <;> intro h <;> linarith

/-- Nothing is found exactly if neither neighbour reads back. -/
lemma onGrid_eq_none_iff : onGrid tie bits num den e = none ↔
    (lowerOn ((num : ℚ) / den) e).bits ≠ bits ∧ (upperOn ((num : ℚ) / den) e).bits ≠ bits := by
  unfold onGrid lowerOn upperOn
  simp only [grid_floor]
  grind

/-- What is found is a neighbour, and if the other one reads back too, it is no nearer. -/
lemma eq_neighbour_of_onGrid {d : Decimal} (hden : 0 < den)
    (h : onGrid tie bits num den e = some d) :
    let q : ℚ := num / den
    d = lowerOn q e ∧ ((upperOn q e).bits = bits →
      q - (lowerOn q e).value ≤ (upperOn q e).value - q) ∨
    d = upperOn q e ∧ ((lowerOn q e).bits = bits →
      (upperOn q e).value - q ≤ q - (lowerOn q e).value) := by
  intro q
  obtain ⟨hless, hmore⟩ := grid_lt_iff num hden e
  unfold onGrid at h
  simp only [grid_floor, hless, hmore] at h
  change (if (lowerOn q e).bits = bits then _ else _) = _ at h
  split at h
  case isFalse hlower =>
    split at h
    case isTrue hupper => exact .inr ⟨(Option.some.inj h).symm, fun hbits => absurd hbits hlower⟩
    case isFalse => contradiction
  case isTrue hlower =>
  split at h
  case isFalse hupper => exact .inl ⟨(Option.some.inj h).symm, fun hbits => absurd hbits hupper⟩
  case isTrue hupper =>
  split at h
  case isTrue hlt => exact .inl ⟨(Option.some.inj h).symm, fun _ => hlt.le⟩
  case isFalse hle =>
  split at h
  case isTrue hlt => exact .inr ⟨(Option.some.inj h).symm, fun _ => hlt.le⟩
  case isFalse hge =>
  -- at equal distance either one may be taken
  split at h
  · exact .inl ⟨(Option.some.inj h).symm, fun _ => not_lt.1 hge⟩
  · exact .inr ⟨(Option.some.inj h).symm, fun _ => not_lt.1 hle⟩

/-- No neighbour that reads back is nearer than what is found. -/
lemma abs_le_of_onGrid {d : Decimal} (hden : 0 < den) (h : onGrid tie bits num den e = some d) :
    ∀ d', d' = lowerOn ((num : ℚ) / den) e ∨ d' = upperOn ((num : ℚ) / den) e → d'.bits = bits →
      |d.value - num / den| ≤ |d'.value - num / den| := by
  intro d' hd' hbits
  have hlower := value_lowerOn_le (q := (num : ℚ) / den) (e := e) (by positivity)
  have hupper := (lt_value_upperOn ((num : ℚ) / den) e).le
  have habs := abs_of_nonneg (sub_nonneg.2 hupper)
  have habs' := abs_of_nonneg (sub_nonneg.2 hlower)
  rw [abs_sub_comm] at habs'
  rcases eq_neighbour_of_onGrid hden h with ⟨rfl, hle⟩ | ⟨rfl, hle⟩
  · rcases hd' with rfl | rfl
    · exact le_rfl
    · rw [habs, habs']
      exact hle hbits
  · rcases hd' with rfl | rfl
    · rw [habs, habs']
      exact hle hbits
    · exact le_rfl

end Found

/-! ### Decimals that read back -/

section ReadBack

variable {bits k : ℕ} {d d' : Decimal}

/-- A decimal between one that reads back and the value reads back. -/
lemma bits_eq_of_between (hfinite : bits < infinityBits) (hd : d.bits = bits)
    (hbetween : d.value ≤ d'.value ∧ d'.value ≤ Binary64.value bits ∨
      Binary64.value bits ≤ d'.value ∧ d'.value ≤ d.value) : d'.bits = bits := by
  rw [bits_eq_round] at hd ⊢
  rcases hbetween with ⟨hlow, hhigh⟩ | ⟨hlow, hhigh⟩
  · refine le_antisymm ?_ ((round_mono hlow).trans' hd.ge)
    exact (round_mono hhigh).trans (round_value hfinite).le
  · refine le_antisymm ((round_mono hhigh).trans hd.le) ?_
    exact (round_mono hlow).trans' (round_value hfinite).ge

/-- A magnitude that is not zero has a significand that is not zero. -/
lemma significand_pos (hpos : 0 < bits) : 0 < significand bits := by
  unfold significand
  split <;> omega

lemma value_pos (hpos : 0 < bits) : 0 < Binary64.value bits :=
  mul_pos (Nat.cast_pos.2 (significand_pos hpos)) (two_zpow_pos _)

/-- A positive magnitude is read from no decimal without digits. -/
lemma pos_of_fitsIn (hpos : 0 < bits) (hd : d.bits = bits) (h : FitsIn k d.value) : 0 < k := by
  by_contra hzero
  obtain ⟨c, e, hc, hvalue⟩ := h
  obtain rfl : k = 0 := by omega
  obtain rfl : c = 0 := by omega
  rw [bits_eq_round, hvalue, Nat.cast_zero, zero_mul, Binary64.round, if_pos le_rfl] at hd
  omega

/-- If a decimal reads back, so does a neighbour on the grid of as many digits, and it is no farther
from the value. -/
lemma exists_neighbour (hpos : 0 < bits) (hfinite : bits < infinityBits) (hd : d.bits = bits)
    (hfits : FitsIn (k + 1) d.value) :
    let q := Binary64.value bits
    ∃ d', (d' = lowerOn q (Int.log 10 q - k) ∨ d' = upperOn q (Int.log 10 q - k)) ∧
      d'.bits = bits ∧ |d'.value - q| ≤ |d.value - q| := by
  intro q
  have hq : 0 < q := value_pos hpos
  rcases le_or_gt d.value q with hle | hlt
  · obtain ⟨m, hlow, hhigh⟩ := exists_le_grid hq hfits hle
    have hlower := hlow.trans (le_value_lowerOn hhigh)
    have hbelow := value_lowerOn_le (e := Int.log 10 q - k) hq.le
    refine ⟨_, .inl rfl, bits_eq_of_between hfinite hd (.inl ⟨hlower, hbelow⟩), ?_⟩
    rw [abs_sub_comm, abs_of_nonneg (sub_nonneg.2 hbelow), abs_sub_comm,
      abs_of_nonneg (sub_nonneg.2 hle)]
    linarith
  · obtain ⟨m, hlow, hhigh⟩ := exists_grid_le hq hfits hlt
    have hupper := (value_upperOn_le hq.le hlow).trans hhigh
    have habove := (lt_value_upperOn q (Int.log 10 q - k)).le
    refine ⟨_, .inr rfl, bits_eq_of_between hfinite hd (.inr ⟨habove, hupper⟩), ?_⟩
    rw [abs_of_nonneg (sub_nonneg.2 habove), abs_of_nonneg (sub_nonneg.2 hlt.le)]
    linarith

end ReadBack

end PlotAnnotation.Decimal

/-! ### Seventeen digits -/

namespace PlotAnnotation.Binary64

/-- A number within half of an integer is rounded to it. -/
lemma halfEven_eq {q : ℚ} {n : ℕ} (hq : 0 ≤ q) (h : |q - n| < 1 / 2) : halfEven q = n := by
  by_contra hne
  have hnear := (halfEven_nearest hq (Ne.symm hne)).1
  rw [abs_sub_comm] at h
  have hapart : (1 : ℚ) ≤ |(n : ℚ) - halfEven q| := by
    have : (1 : ℤ) ≤ |(n : ℤ) - halfEven q| := Int.one_le_abs (sub_ne_zero.2 (by omega))
    exact_mod_cast this
  have htriangle := abs_sub_le (n : ℚ) q (halfEven q)
  rw [abs_sub_comm q] at htriangle
  linarith

/-- A number that has the given unit and lies within half a unit of a whole number of them is
rounded to these units. -/
lemma round_eq_of_unit {r : ℚ} {u : ℤ} {n : ℕ} (hr : 0 < r) (hunit : unit r = u)
    (hnear : |r - n * 2 ^ u| < 2 ^ u / 2) :
    round r = min infinityBits ((u + 1074).toNat * 2 ^ 52 + n) := by
  have hu := two_zpow_pos u
  have hscaled : |r / 2 ^ u - n| < 1 / 2 := by
    have hsplit : r / 2 ^ u - n = (r - n * 2 ^ u) / 2 ^ u := by
      rw [sub_div, mul_div_cancel_right₀ _ hu.ne']
    rw [hsplit, abs_div, abs_of_pos hu, div_lt_iff₀ hu]
    linarith
  rw [round_of_pos hr, hunit, halfEven_eq (div_nonneg hr.le hu.le) hscaled]

/-- A magnitude is put together from its unit and its significand. -/
lemma eq_units (b : ℕ) : b = (exponent b + 1074).toNat * 2 ^ 52 + significand b := by
  unfold exponent significand
  split <;> omega

/-- The binary logarithm compared with the exponent of a unit. -/
lemma log_lt_iff {r : ℚ} (hr : 0 < r) (n : ℕ) (u : ℤ) :
    Int.log 2 r < n + u ↔ r < 2 ^ n * 2 ^ u := by
  rw [← Int.lt_zpow_iff_log_lt one_lt_two hr, Nat.cast_ofNat, zpow_add₀ two_ne_zero, zpow_natCast]

/-- What is nearer to the value of a magnitude than a small part of it is rounded to the magnitude,
also at the start of a binade, where the units on either side differ. -/
theorem round_eq_of_near {b : ℕ} {r : ℚ} (hpos : 0 < b) (hfinite : b < infinityBits)
    (hnear : |r - value b| < value b / 2 ^ 54) : round r = b := by
  have hbits := eq_units b
  have hvalue : value b = significand b * 2 ^ exponent b := rfl
  have hmin : -1074 ≤ exponent b := by
    unfold exponent
    omega
  have hlarge : significand b < 2 ^ 53 := by
    unfold significand
    split <;> omega
  have hnormal : -1074 < exponent b → 2 ^ 52 ≤ significand b := by
    unfold exponent significand
    split <;> omega
  have hr : 0 < r := by
    have := Decimal.value_pos hpos
    have := (abs_sub_lt_iff.1 hnear).2
    linarith
  revert hbits hnear
  rw [hvalue]
  generalize significand b = s at hlarge hnormal ⊢
  generalize exponent b = u at hmin hnormal ⊢
  intro hnear hbits
  have hu := two_zpow_pos u
  have hsq : (s : ℚ) ≤ 2 ^ 53 - 1 := by
    rw [le_sub_iff_add_le]
    exact_mod_cast hlarge
  have hpart : s * 2 ^ u / 2 ^ 54 ≤ (2 ^ u / 2 - 2 ^ u / 2 ^ 54 : ℚ) := by
    linarith [mul_le_mul_of_nonneg_right hsq hu.le]
  obtain ⟨hhigh, hlow⟩ := abs_sub_lt_iff.1 hnear
  -- the number is not in a later binade
  have hlog : Int.log 2 r < (53 : ℕ) + u := by
    rw [log_lt_iff hr]
    linarith [mul_le_mul_of_nonneg_right hsq hu.le]
  have hunit : unit r = max (-1074) (Int.log 2 r - 52) := rfl
  rcases eq_or_ne (unit r) u with hsame | hother
  · rw [round_eq_of_unit hr hsame (n := s)]
    · omega
    · linarith
  · -- it is in the binade before, so the magnitude starts the next one
    have hbefore : Int.log 2 r < (52 : ℕ) + u := by omega
    rw [log_lt_iff hr] at hbefore
    obtain rfl : s = 2 ^ 52 := by
      have hstart := hnormal (by omega)
      have hless : (s : ℚ) * 2 ^ u < (2 ^ 52 + 1 : ℕ) * 2 ^ u := by
        push_cast
        linarith
      have := (mul_lt_mul_iff_left₀ hu).1 hless
      have : s < 2 ^ 52 + 1 := by exact_mod_cast this
      omega
    have hlast : ¬Int.log 2 r < (51 : ℕ) + u := by
      rw [log_lt_iff hr]
      push_cast at hlow
      linarith
    have hhalf : (2 : ℚ) ^ u = 2 * 2 ^ (u - 1) := by
      rw [← zpow_one_add₀ two_ne_zero]
      congr 1
      omega
    have hstart : ((2 ^ 53 : ℕ) : ℚ) * 2 ^ (u - 1) = (2 ^ 52 : ℕ) * 2 ^ u := by
      rw [hhalf]
      push_cast
      ring
    rw [round_eq_of_unit hr (u := u - 1) (n := 2 ^ 53) (by omega)]
    · omega
    · rw [hstart]
      calc |r - (2 ^ 52 : ℕ) * 2 ^ u| < (2 ^ 52 : ℕ) * 2 ^ u / 2 ^ 54 := hnear
        _ = 2 ^ (u - 1) / 2 := by
          rw [hhalf]
          push_cast
          ring

end PlotAnnotation.Binary64

namespace PlotAnnotation.Decimal

open Binary64

/-! ### The search -/

/-- What is found first in a range. -/
lemma exists_first_of_findSome? {α : Type} {f : ℕ → Option α} {n : ℕ} {a : α}
    (h : (List.range n).findSome? f = some a) :
    ∃ k, k < n ∧ f k = some a ∧ ∀ j < k, f j = none := by
  induction n with
  | zero => simp at h
  | succ n ih =>
    rw [List.range_succ, List.findSome?_append, Option.or_eq_some_iff] at h
    rcases h with h | ⟨hnone, h⟩
    · obtain ⟨k, hk, hfound, hbefore⟩ := ih h
      exact ⟨k, by omega, hfound, hbefore⟩
    · rw [List.findSome?_singleton] at h
      rw [List.findSome?_eq_none_iff] at hnone
      exact ⟨n, n.lt_succ_self, h, fun j hj => hnone j (List.mem_range.2 hj)⟩

section Search

variable (tie : Tie) {bits : ℕ}

/-- With seventeen digits one of the neighbours is so near that it reads back. -/
lemma exists_neighbour_seventeen (hpos : 0 < bits) (hfinite : bits < infinityBits) :
    let q := Binary64.value bits
    (lowerOn q (Int.log 10 q - 16)).bits = bits ∨ (upperOn q (Int.log 10 q - 16)).bits = bits := by
  intro q
  have hq : 0 < q := value_pos hpos
  have hstep : (10 : ℚ) ^ (Int.log 10 q - 16) ≤ q / 10 ^ 16 := by
    rw [zpow_sub₀ (by norm_num)]
    exact div_le_div_of_nonneg_right (zpow_log_le hq) (by norm_num)
  have hsum := value_upperOn q (Int.log 10 q - 16)
  have hlower := value_lowerOn_le (e := Int.log 10 q - 16) hq.le
  have hupper := lt_value_upperOn q (Int.log 10 q - 16)
  rw [bits_eq_round, bits_eq_round]
  rcases le_or_gt (2 * (q - (lowerOn q (Int.log 10 q - 16)).value)) (10 ^ (Int.log 10 q - 16))
    with hnear | hfar
  · refine .inl (round_eq_of_near hpos hfinite ?_)
    rw [abs_sub_comm, abs_of_nonneg (sub_nonneg.2 hlower)]
    change _ < q / 2 ^ 54
    linarith
  · refine .inr (round_eq_of_near hpos hfinite ?_)
    rw [abs_of_nonneg (sub_nonneg.2 hupper.le)]
    change _ < q / 2 ^ 54
    linarith

/-- The search ends on the first grid that has a neighbour which reads back. -/
lemma exists_onGrid_shortest (hpos : 0 < bits) (hfinite : bits < infinityBits) :
    ∃ k : ℕ,
      onGrid tie bits (numerator bits) (denominator bits) (Int.log 10 (Binary64.value bits) - k) =
        some (shortest tie bits) ∧
      ∀ j < k, onGrid tie bits (numerator bits) (denominator bits)
        (Int.log 10 (Binary64.value bits) - j) = none := by
  have hden : 0 < denominator bits := Nat.two_pow_pos _
  have hnum : 0 < numerator bits := Nat.mul_pos (significand_pos hpos) (Nat.two_pow_pos _)
  have htop :
      floorLog10 (numerator bits) (denominator bits) = Int.log 10 (Binary64.value bits) := by
    rw [floorLog10_eq_log hnum hden, value_eq_div]
  unfold shortest
  simp only [htop]
  cases hsearch : (List.range 17).findSome? fun n : ℕ => onGrid tie bits (numerator bits)
      (denominator bits) (Int.log 10 (Binary64.value bits) - n) with
  | some d =>
    obtain ⟨k, -, hfound, hbefore⟩ := exists_first_of_findSome? hsearch
    exact ⟨k, hfound, hbefore⟩
  | none =>
    have hnone := List.findSome?_eq_none_iff.1 hsearch 16 (by simp)
    rw [Nat.cast_ofNat, onGrid_eq_none_iff, ← value_eq_div] at hnone
    rcases exists_neighbour_seventeen hpos hfinite with hlower | hupper
    · exact absurd hlower hnone.1
    · exact absurd hupper hnone.2

/-- **The search finds the shortest decimal.**  No decimal that reads back as the magnitude has
fewer digits, and of those with as few none is nearer to its value. -/
theorem isShortest_shortest (hpos : 0 < bits) (hfinite : bits < infinityBits) :
    (shortest tie bits).IsShortest bits := by
  have hden : 0 < denominator bits := Nat.two_pow_pos _
  have hq := value_pos hpos
  obtain ⟨k, hfound, hbefore⟩ := exists_onGrid_shortest tie hpos hfinite
  have hcases := eq_neighbour_of_onGrid hden hfound
  have habs := abs_le_of_onGrid hden hfound
  rw [← value_eq_div] at hcases habs
  have hfits : FitsIn (k + 1) (shortest tie bits).value :=
    fitsIn_neighbour hq.le (hcases.imp And.left And.left)
  refine ⟨bits_shortest tie hfinite, fun d hd j hj => ?_, fun d hd hfew => ?_⟩
  · obtain ⟨j, rfl⟩ := Nat.exists_eq_succ_of_ne_zero (pos_of_fitsIn hpos hd hj).ne'
    -- with fewer digits the search would have ended before
    rcases lt_or_ge j k with hlt | hge
    · obtain ⟨d', hneighbour, hbits, -⟩ := exists_neighbour hpos hfinite hd hj
      have hnone := hbefore j hlt
      rw [onGrid_eq_none_iff, ← value_eq_div] at hnone
      rcases hneighbour with rfl | rfl
      · exact absurd hbits hnone.1
      · exact absurd hbits hnone.2
    · exact hfits.mono (by omega)
  · obtain ⟨d', hneighbour, hbits, hnearer⟩ := exists_neighbour hpos hfinite hd (hfew _ hfits)
    exact (habs d' hneighbour hbits).trans hnearer

end Search

end PlotAnnotation.Decimal
