import PlotAnnotation.Proofs.Decimal.Monotone

/-!
# The order of doubles

Doubles are compared by their exponents and then by their significands.  Two that are numbers are
always one at most the other or greater than it (`not_le_iff_lt`); only `NaN` is neither.

Finite doubles without a sign are in the order of their bits (`le_of_magnitude_le`), and rounding
keeps the order of integers, so the doubles nearest to integers of 64 bits are in the order of these
(`ofInt_mono`).
-/

namespace PlotAnnotation.Binary64

open Float.Model

/-! ### Comparing two numbers -/

/-- The order of floats, as the unpacked forms compare. -/
lemma le_iff {x y : Float} :
    x ≤ y ↔ (x.toModel.unpack.compare y.toModel.unpack).any Ordering.isLE = true :=
  decide_eq_true_iff

/-- The strict order of floats, as the unpacked forms compare. -/
lemma lt_iff {x y : Float} :
    x < y ↔ (x.toModel.unpack.compare y.toModel.unpack == some .lt) = true :=
  decide_eq_true_iff

/-- Comparing exponents and then significands the other way round swaps the outcome. -/
lemma swap_then_compare (e e' : ℤ) (m m' : ℕ) :
    (compare e' e).then (compare m' m) = ((compare e e').then (compare m m')).swap := by
  rw [Ordering.swap_then, Int.compare_swap, Nat.compare_swap]

/-- Two doubles compared the other way round. -/
lemma unpacked_compare_swap (a b : UnpackedFloat) :
    b.compare a = (a.compare b).map Ordering.swap := by
  cases a with
  | notANumber => cases b <;> rfl
  | infinity s =>
    cases b with
    | notANumber => cases s <;> rfl
    | infinity t => cases s <;> cases t <;> rfl
    | zero t => cases s <;> rfl
    | finite t m e hm => cases s <;> cases t <;> rfl
  | zero s =>
    cases b with
    | notANumber => rfl
    | infinity t => cases t <;> rfl
    | zero t => rfl
    | finite t m e hm => cases t <;> rfl
  | finite s m e hm =>
    cases b with
    | notANumber => cases s <;> rfl
    | infinity t => cases s <;> cases t <;> rfl
    | zero t => cases s <;> rfl
    | finite t m' e' hm' =>
      have hswap := swap_then_compare e e' m m'
      cases s <;> cases t
      · exact congrArg (fun o => some o.swap) hswap
      · rfl
      · rfl
      · exact congrArg some hswap

/-- Two numbers can be compared. -/
lemma isSome_compare {a b : UnpackedFloat} (ha : a.isNaN = false) (hb : b.isNaN = false) :
    (a.compare b).isSome = true := by
  unfold UnpackedFloat.compare
  split
  · contradiction
  · contradiction
  all_goals rfl

/-- Of two numbers, either the first is at most the second or the second is less. -/
theorem not_le_iff_lt {x y : Float} (hx : x.isNaN = false) (hy : y.isNaN = false) :
    ¬x ≤ y ↔ y < x := by
  obtain ⟨o, ho⟩ := Option.isSome_iff_exists.1 (isSome_compare hx hy)
  rw [le_iff, lt_iff, unpacked_compare_swap x.toModel.unpack, ho]
  cases o <;> decide

/-! ### The parts of a double -/

/-- The sign of a float that is not negative is unpacked as positive. -/
lemma sign_eq {x : Float} (h : isNegative x = false) :
    UnpackedFloat.Sign.ofBitVec
      (@UnpackedFloat.unpackSign Format.binary64 x.toModel.toBits.toBitVec) = .positive := by
  have hlt : x.toModel.toBits.toNat < 2 ^ 63 := Nat.lt_of_not_le (of_decide_eq_false h)
  have hzero : @UnpackedFloat.unpackSign Format.binary64 x.toModel.toBits.toBitVec = 0#1 := by
    apply BitVec.eq_of_toNat_eq
    change (x.toModel.toBits.toBitVec.extractLsb' 63 1).toNat = 0
    rw [BitVec.extractLsb'_toNat, Nat.shiftRight_eq_div_pow, UInt64.toNat_toBitVec]
    omega
  rw [hzero]
  rfl

/-- The exponent that is unpacked is the high part of the magnitude. -/
lemma toNat_unpackExponent (x : Float) :
    (@UnpackedFloat.unpackExponent Format.binary64 x.toModel.toBits.toBitVec).toNat =
      magnitude x / 2 ^ 52 := by
  change _ = x.toModel.toBits.toNat % 2 ^ 63 / 2 ^ 52
  simp [UnpackedFloat.unpackExponent, BitVec.extractLsb, BitVec.extractLsb'_toNat,
    Nat.shiftRight_eq_div_pow]
  omega

/-- The significand that is unpacked is the low part of the magnitude. -/
lemma toNat_unpackMantissa (x : Float) :
    (@UnpackedFloat.unpackMantissa Format.binary64 x.toModel.toBits.toBitVec).toNat =
      magnitude x % 2 ^ 52 := by
  change _ = x.toModel.toBits.toNat % 2 ^ 63 % 2 ^ 52
  simp [UnpackedFloat.unpackMantissa, BitVec.extractLsb, BitVec.extractLsb'_toNat]

/-- Finite floats with equal parts are equal, whatever shows their parts positive. -/
lemma exists_finite_eq {s : UnpackedFloat.Sign} {m m' : ℕ} {e e' : ℤ} (h : 0 < m) (hm : m = m')
    (he : e = e') : ∃ h', UnpackedFloat.finite s m e h = .finite s m' e' h' := by
  subst hm he
  exact ⟨h, rfl⟩

/-- A finite double without a sign is zero, or has its significand and its exponent. -/
lemma unpack_eq {x : Float} (hx : x.isFinite = true) (hsign : isNegative x = false) :
    (magnitude x = 0 ∧ x.toModel.unpack = .zero .positive) ∨
    ∃ hpos, x.toModel.unpack =
      .finite .positive (significand (magnitude x)) (exponent (magnitude x)) hpos := by
  have hexponent := toNat_unpackExponent x
  have hmantissa := toNat_unpackMantissa x
  have hbias : (Format.binary64.exponentBias : ℤ) + Format.binary64.mantissaBitsWithoutImplicit =
    1075 := rfl
  have hfull : @UnpackedFloat.unpackExponent Format.binary64 x.toModel.toBits.toBitVec ≠ -1#11 := by
    rw [ne_eq, unpackExponent_eq_iff]
    exact not_le.2 ((isFinite_iff x).1 hx)
  unfold Float.Model.unpack UnpackedFloat.unpack
  rw [if_neg hfull, sign_eq hsign]
  by_cases hzero : @UnpackedFloat.unpackExponent Format.binary64 x.toModel.toBits.toBitVec = 0#11
  · have hlow : magnitude x / 2 ^ 52 = 0 := by rw [← hexponent, hzero, BitVec.toNat_zero]
    rw [if_pos hzero]
    by_cases hm : @UnpackedFloat.unpackMantissa Format.binary64 x.toModel.toBits.toBitVec = 0#52
    · rw [dif_pos hm]
      rw [hm, BitVec.toNat_zero] at hmantissa
      exact .inl ⟨by omega, rfl⟩
    · rw [dif_neg hm]
      refine .inr (exists_finite_eq _ ?_ ?_)
      · rw [hmantissa, significand, if_pos (by omega), Nat.mod_eq_of_lt (by omega)]
      · rw [hexponent, hbias, exponent]
        omega
  · have hhigh : magnitude x / 2 ^ 52 ≠ 0 := by
      rw [← hexponent]
      exact fun h => hzero (BitVec.eq_of_toNat_eq h)
    rw [if_neg hzero]
    refine .inr (exists_finite_eq _ ?_ ?_)
    · rw [BitVec.toNat_append, ← Nat.shiftLeft_add_eq_or_of_lt (BitVec.isLt _), hmantissa,
        significand, if_neg (by omega)]
      rfl
    · rw [hexponent, hbias, exponent]
      omega

/-! ### The order of bits -/

/-- Of two magnitudes the greater one has the greater exponent, or the same and no smaller
significand. -/
lemma exponent_lt_or {a b : ℕ} (h : a ≤ b) :
    exponent a < exponent b ∨ exponent a = exponent b ∧ significand a ≤ significand b := by
  unfold exponent significand
  split <;> split <;> omega

/-- Finite doubles without a sign are in the order of their bits. -/
theorem le_of_magnitude_le {x y : Float} (hx : x.isFinite = true) (hy : y.isFinite = true)
    (hxsign : isNegative x = false) (hysign : isNegative y = false)
    (h : magnitude x ≤ magnitude y) : x ≤ y := by
  rw [le_iff]
  rcases unpack_eq hx hxsign with ⟨-, hunpackx⟩ | ⟨hpos, hunpackx⟩
  · rw [hunpackx]
    rcases unpack_eq hy hysign with ⟨-, hunpacky⟩ | ⟨_, hunpacky⟩
    · rw [hunpacky]
      rfl
    · rw [hunpacky]
      rfl
  · rw [hunpackx]
    rcases unpack_eq hy hysign with ⟨hzero, -⟩ | ⟨_, hunpacky⟩
    · have hzero' : magnitude x = 0 := Nat.le_zero.1 (h.trans hzero.le)
      rw [hzero'] at hpos
      contradiction
    · rw [hunpacky]
      change ((compare _ _).then (compare _ _)).isLE = true
      rcases exponent_lt_or h with hlt | ⟨heq, hle⟩
      · rw [compare_lt_iff_lt.2 hlt]
        rfl
      · rw [heq, compare_eq_iff_eq.2 rfl, Ordering.eq_then]
        exact Nat.isLE_compare.2 hle

/-- The double nearest to a natural number has no sign. -/
lemma isNegative_ofInt (n : ℕ) : isNegative (ofInt n) = false := by
  rw [ofInt, nearest, isNegative_ofMagnitude]
  exact decide_eq_false (by omega)

/-- The double nearest to a natural number is the number rounded. -/
lemma magnitude_ofInt (n : ℕ) : magnitude (ofInt n) = round n := by
  rw [ofInt, nearest, magnitude_ofMagnitude, nearestBits_eq_round Nat.one_pos, Int.natAbs_natCast,
    Nat.cast_one, div_one]

/-- The doubles nearest to natural numbers of 64 bits are in the order of these. -/
theorem ofInt_mono {n m : ℕ} (h : n ≤ m) (hm : m ≤ 2 ^ 64) : ofInt n ≤ ofInt m := by
  refine le_of_magnitude_le (isFinite_ofInt (by omega) (by omega))
    (isFinite_ofInt (by omega) (by omega)) (isNegative_ofInt n) (isNegative_ofInt m) ?_
  rw [magnitude_ofInt, magnitude_ofInt]
  exact round_mono (Nat.cast_le.2 h)

end PlotAnnotation.Binary64
