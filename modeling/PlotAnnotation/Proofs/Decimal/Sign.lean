import Mathlib
import PlotAnnotation.Proofs.Decimal.Order

/-!
# The sign of a double

A double is packed from a sign, an exponent and a significand, and the sign is the first bit.  So
the negation of a number greater than zero has the same magnitude and the other sign (`parts_neg`).
The two zeros differ in nothing but the sign, and no other double is equal to them
(`beq_zero_iff`).
-/

namespace PlotAnnotation.Binary64

open Float.Model

/-- A float is packed as sign, exponent and significand, from the highest bit down. -/
lemma toNat_packComponents (s : UnpackedFloat.Sign) (e : BitVec 11) (m : BitVec 52) :
    (UnpackedFloat.packComponents Format.binary64 s e m).toNat =
      s.toBitVec.toNat * 2 ^ 63 + (e.toNat * 2 ^ 52 + m.toNat) := by
  change (s.toBitVec ++ e ++ m).toNat = _
  rw [BitVec.toNat_append, ← Nat.shiftLeft_add_eq_or_of_lt m.isLt, BitVec.toNat_append,
    ← Nat.shiftLeft_add_eq_or_of_lt e.isLt, Nat.shiftLeft_eq, Nat.shiftLeft_eq]
  omega

/-- Packed numbers that differ in their sign differ in one bit. -/
lemma exists_toNat_pack_finite {m : ℕ} (e : ℤ) (hm : 0 < m) : ∃ r < 2 ^ 63, ∀ s,
    (UnpackedFloat.pack Format.binary64 (.finite s m e hm)).toNat =
      s.toBitVec.toNat * 2 ^ 63 + r := by
  have hcomponents (e : BitVec 11) (m : BitVec 52) : ∃ r < 2 ^ 63, ∀ s,
      (UnpackedFloat.packComponents Format.binary64 s e m).toNat =
        s.toBitVec.toNat * 2 ^ 63 + r := by
    refine ⟨e.toNat * 2 ^ 52 + m.toNat, ?_, fun s => toNat_packComponents s e m⟩
    have he := e.isLt
    have hm := m.isLt
    omega
  unfold UnpackedFloat.pack
  simp only
  split
  · exact hcomponents _ _
  · split
    · exact hcomponents _ _
    · exact hcomponents _ _

/-- A double is packed from its parts. -/
lemma pack_unpack (x : Float) :
    UnpackedFloat.pack Format.binary64 x.toModel.unpack = x.toBits.toBitVec :=
  UnpackedFloat.pack_unpack_of_valid x.toModel.valid

/-- Floats with the same unpacked form are equal. -/
lemma eq_of_unpack_eq {x y : Float} (h : x.toModel.unpack = y.toModel.unpack) : x = y := by
  refine Decimal.eq_of_toBits_eq (UInt64.toBitVec_inj.1 ?_)
  rw [← pack_unpack, ← pack_unpack, h]

/-- Every double but `NaN` is equal to itself. -/
lemma beq_self_of_isNaN {x : Float} (h : x.isNaN = false) : (x == x) = true := by
  rw [Float.beq_self_iff]
  rintro rfl
  contradiction

/-- Only the zeros are equal to zero, and they have no magnitude. -/
lemma beq_zero_iff {x : Float} : (x == 0) = true ↔ magnitude x = 0 := by
  constructor
  · intro h
    rcases (Float.beq_iff_ne_nan_and_eq.1 h).2.2 with rfl | ⟨rfl, -⟩ | ⟨rfl, -⟩ <;> decide
  · intro h
    have hzero : Decimal.bits ⟨0, 0⟩ = magnitude x := by
      rw [h]
      rfl
    rw [← Decimal.toFloat_eq hzero]
    cases isNegative x <;> decide

/-- A float has a magnitude unless it is zero. -/
lemma magnitude_pos_iff {x : Float} : 0 < magnitude x ↔ (x == 0) = false := by
  rw [Nat.pos_iff_ne_zero, Ne, ← beq_zero_iff, Bool.not_eq_true]

/-- A number greater than zero has no sign, and its negation has one. -/
lemma parts_neg {x : Float} (hx : x.isFinite = true) (hpos : 0 < x) :
    isNegative x = false ∧ isNegative (-x) = true ∧ magnitude (-x) = magnitude x := by
  have hneg : (-x).toBits.toBitVec = UnpackedFloat.pack Format.binary64 x.toModel.unpack.neg := rfl
  have hpack := pack_unpack x
  change x.toModel.unpack.isFinite = true at hx
  rw [lt_iff] at hpos
  cases hunpack : x.toModel.unpack with
  | notANumber =>
    rw [hunpack] at hx
    contradiction
  | infinity s =>
    rw [hunpack] at hx
    contradiction
  | zero s =>
    rw [hunpack] at hpos
    contradiction
  | finite s m e hm =>
    rw [hunpack] at hpos hneg hpack
    obtain ⟨r, hr, hbits⟩ := exists_toNat_pack_finite e hm
    cases s with
    | negative => contradiction
    | positive =>
      have hx : 0 * 2 ^ 63 + r = x.toBits.toNat :=
        (hbits .positive).symm.trans (congrArg BitVec.toNat hpack)
      have hminus : (-x).toBits.toNat = 1 * 2 ^ 63 + r :=
        (congrArg BitVec.toNat hneg).trans (hbits .negative)
      unfold isNegative magnitude
      rw [hminus, ← hx, decide_eq_false_iff_not, decide_eq_true_iff]
      omega

end PlotAnnotation.Binary64
