import PlotAnnotation.Arithmetic

/-!
# Double precision numbers, seen from their bits

A finite double is a sign and a magnitude, and the magnitude is the integer `significand` times two
to the `exponent`.  Read as integers, the bits of the magnitudes are in the order of their values,
and the bits of infinity come right after those of the largest finite double.

`nearestBits` rounds a quotient of integers to the nearest magnitude, a half to the even one.  The
unit in the last place is fixed first, from the size of the quotient; the quotient is then rounded
to a whole number of these units.  A result that fills the next binade carries into the exponent
bits by itself.
-/

namespace PlotAnnotation.Binary64

open scoped Arithmetic

/-- The bits of positive infinity. -/
def infinityBits : Nat := 0x7FF0000000000000

/-- The bits of a double without its sign. -/
def magnitude (x : Float) : Nat :=
  x.toBits.toNat % 2 ^ 63

/-- Whether the sign bit is set. -/
def isNegative (x : Float) : Bool :=
  2 ^ 63 ≤ x.toBits.toNat

/-- The integer that a finite magnitude multiplies its unit by. -/
def significand (bits : Nat) : Nat :=
  if bits < 2 ^ 52 then bits else 2 ^ 52 + bits % 2 ^ 52

/-- The power of two that is the unit of a finite magnitude. -/
def exponent (bits : Nat) : Int :=
  (max (bits / 2 ^ 52) 1 : Nat) - 1075

/-- The numerator of a magnitude, as a quotient of integers. -/
def numerator (bits : Nat) : Nat :=
  significand bits * 2 ^ (exponent bits).toNat

/-- The denominator of a magnitude, as a quotient of integers. -/
def denominator (bits : Nat) : Nat :=
  2 ^ (-exponent bits).toNat

/-! ### Rounding -/

/-- `num / den` rounded to an integer, a half to the even one. -/
def roundHalfEven (num den : Nat) : Nat :=
  let floor := num / den
  let rest := num % den
  if 2 * rest < den then floor
  else if den < 2 * rest then floor + 1
  else floor + floor % 2

/-- The greatest `e` with `2 ^ e ≤ num / den`, for positive integers. -/
def floorLog2 (num den : Nat) : Int :=
  let e : Int := (num.log2 : Int) - den.log2
  if den * 2 ^ e.toNat ≤ num * 2 ^ (-e).toNat then e else e - 1

/-- The exponent of the unit that a positive quotient is rounded to. -/
def unitExponent (num den : Nat) : Int :=
  max (-1074) (floorLog2 num den - 52)

/-- The bits of the magnitude nearest to `num / den`. -/
def nearestBits (num den : Nat) : Nat :=
  if num = 0 then 0
  else
    let e := unitExponent num den
    min infinityBits ((e + 1074).toNat * 2 ^ 52 +
      roundHalfEven (num * 2 ^ (-e).toNat) (den * 2 ^ e.toNat))

@[simp] theorem nearestBits_zero (den : Nat) : nearestBits 0 den = 0 := rfl

/-- Rounding does not go beyond the infinity. -/
theorem nearestBits_le (num den : Nat) : nearestBits num den ≤ infinityBits := by
  unfold nearestBits
  split
  · exact Nat.zero_le _
  · exact Nat.min_le_left _ _

/-! ### Doubles from their bits -/

/-- The bits of a double with the given sign and magnitude. -/
def signedBits (negative : Bool) (bits : Nat) : UInt64 :=
  UInt64.ofNat (bits + if negative then 2 ^ 63 else 0)

/-- The sign is the highest bit, and the magnitude the other bits. -/
theorem toNat_signedBits {negative : Bool} {bits : Nat} (h : bits ≤ infinityBits) :
    (signedBits negative bits).toNat = bits + if negative then 2 ^ 63 else 0 := by
  unfold infinityBits at h
  unfold signedBits
  cases negative <;> simp <;> omega

open Float.Model in
/-- Bits whose magnitude is at most that of infinity are the bits of a double that is a number. -/
theorem valid_of_le {b : UInt64} (h : b.toNat % 2 ^ 63 ≤ infinityBits) :
    Format.binary64.Valid b.toBitVec := by
  refine ⟨fun hexp hman => absurd ?_ hman⟩
  have he := congrArg BitVec.toNat hexp
  unfold infinityBits at h
  apply BitVec.eq_of_toNat_eq
  simp [UnpackedFloat.unpackExponent, UnpackedFloat.unpackMantissa, BitVec.extractLsb,
    BitVec.extractLsb'_toNat, Nat.shiftRight_eq_div_pow] at he ⊢
  omega

open Float.Model in
/-- The exponent bits are all set exactly from infinity on. -/
theorem unpackExponent_eq_iff (b : UInt64) :
    @UnpackedFloat.unpackExponent Format.binary64 b.toBitVec = -1#11 ↔
      infinityBits ≤ b.toNat % 2 ^ 63 := by
  unfold infinityBits
  rw [← BitVec.toNat_inj]
  simp [UnpackedFloat.unpackExponent, BitVec.extractLsb,
    BitVec.extractLsb'_toNat, Nat.shiftRight_eq_div_pow]
  omega

open Float.Model in
/-- Of two numbers that are both finite either one is. -/
theorem isFinite_dite {p : Prop} [Decidable p] {a : p → UnpackedFloat} {b : ¬p → UnpackedFloat}
    (ha : ∀ h, (a h).isFinite = true) (hb : ∀ h, (b h).isFinite = true) :
    (if h : p then a h else b h).isFinite = true := by
  split
  · exact ha _
  · exact hb _

open Float.Model in
/-- The finite doubles are those whose magnitude lies below infinity. -/
theorem isFinite_iff (x : Float) : x.isFinite = true ↔ magnitude x < infinityBits := by
  have h := unpackExponent_eq_iff x.toModel.toBits
  rw [← Nat.not_le]
  change x.toModel.unpack.isFinite = true ↔ ¬infinityBits ≤ x.toModel.toBits.toNat % 2 ^ 63
  rw [← h]
  unfold Float.Model.unpack UnpackedFloat.unpack
  by_cases he : @UnpackedFloat.unpackExponent Format.binary64 x.toModel.toBits.toBitVec = -1#11
  · rw [if_pos he]
    refine iff_of_false ?_ (not_not_intro he)
    split
    · exact Bool.false_ne_true
    · exact Bool.false_ne_true
  · rw [if_neg he]
    refine iff_of_true ?_ he
    by_cases hz : @UnpackedFloat.unpackExponent Format.binary64 x.toModel.toBits.toBitVec = 0#11
    · rw [if_pos hz]
      exact isFinite_dite (fun _ => rfl) (fun _ => rfl)
    · rw [if_neg hz]
      rfl

/-- The double with the given sign and magnitude. -/
def ofMagnitude (negative : Bool) (bits : Nat) (h : bits ≤ infinityBits) : Float :=
  Float.ofModel ⟨signedBits negative bits, valid_of_le (by
    rw [toNat_signedBits h]
    unfold infinityBits at *
    split <;> omega)⟩

/-- The bits of the float of a magnitude are the magnitude and the sign bit. -/
theorem toNat_toBits_ofMagnitude {negative : Bool} {bits : Nat} (h : bits ≤ infinityBits) :
    (ofMagnitude negative bits h).toBits.toNat = bits + if negative then 2 ^ 63 else 0 :=
  toNat_signedBits h

@[simp] theorem magnitude_ofMagnitude {negative : Bool} {bits : Nat} (h : bits ≤ infinityBits) :
    magnitude (ofMagnitude negative bits h) = bits := by
  rw [magnitude, toNat_toBits_ofMagnitude]
  unfold infinityBits at h
  split <;> omega

@[simp] theorem isNegative_ofMagnitude {negative : Bool} {bits : Nat} (h : bits ≤ infinityBits) :
    isNegative (ofMagnitude negative bits h) = negative := by
  rw [isNegative, toNat_toBits_ofMagnitude]
  unfold infinityBits at h
  cases negative with
  | false =>
    simp
    omega
  | true => simp

/-- The double nearest to a quotient, with a sign. -/
def nearest (negative : Bool) (num den : Nat) : Float :=
  ofMagnitude negative (nearestBits num den) (nearestBits_le num den)

/-- The double nearest to an integer. -/
def ofInt (n : Int) : Float :=
  nearest (n < 0) n.natAbs 1

/-- The integer part of a finite double, toward zero. -/
def truncate (x : Float) : Int :=
  let whole : Int := (numerator (magnitude x) / denominator (magnitude x) : Nat)
  if isNegative x then -whole else whole

end PlotAnnotation.Binary64
