import PlotAnnotation.Proofs.Json.Numeral

/-!
# Numbers in labels

A double is `NaN`, infinite or finite (`Binary64.isFinite_eq`).  Only the first is written with a
capital `N` (`not_mem_numberLabel`): infinity has words of its own, and a finite double is the text
of a numeral.

The doubles nearest to quotients of integers are never `NaN`, not even those that are too large to
be finite (`isNaN_nearest`).
-/

namespace PlotAnnotation

/-! ### NaN, infinite and finite -/

namespace Binary64

open Float.Model in
/-- A double is NaN, infinite or finite. -/
lemma isFinite_eq (x : Float) : x.isFinite = (!x.isNaN && !x.isInf) := by
  change x.toModel.unpack.isFinite = (!x.toModel.unpack.isNaN && !x.toModel.unpack.isInf)
  cases x.toModel.unpack with
  | notANumber => rfl
  | infinity s => rfl
  | zero s => rfl
  | finite s m e hm => rfl

/-- NaN and the infinities are not finite. -/
lemma isFinite_eq_false {x : Float} (h : x.isNaN = true ∨ x.isInf = true) :
    x.isFinite = false := by
  rw [isFinite_eq]
  rcases h with h | h
  · rw [h, Bool.not_true, Bool.false_and]
  · rw [h, Bool.not_true, Bool.and_false]

/-- A finite double is no NaN. -/
lemma isNaN_of_isFinite {x : Float} (h : x.isFinite = true) : x.isNaN = false := by
  rw [isFinite_eq, Bool.and_eq_true, Bool.not_eq_true'] at h
  exact h.1

open Float.Model in
/-- Where all exponent bits are set and no other bit of the magnitude is, there is infinity. -/
lemma isNaN_of_magnitude_eq {x : Float} (h : magnitude x = infinityBits) : x.isNaN = false := by
  have hexponent : @UnpackedFloat.unpackExponent Format.binary64 x.toModel.toBits.toBitVec =
      -1#11 := by
    rw [unpackExponent_eq_iff]
    exact h.ge
  have hmantissa : @UnpackedFloat.unpackMantissa Format.binary64 x.toModel.toBits.toBitVec =
      0#52 := by
    have hbits : x.toModel.toBits.toNat % 2 ^ 63 = infinityBits := h
    unfold infinityBits at hbits
    apply BitVec.eq_of_toNat_eq
    simp [UnpackedFloat.unpackMantissa, BitVec.extractLsb, BitVec.extractLsb'_toNat]
    omega
  change x.toModel.unpack.isNaN = false
  unfold Float.Model.unpack UnpackedFloat.unpack
  rw [if_pos hexponent, if_pos hmantissa]
  rfl

/-- A magnitude up to that of infinity is that of a number. -/
lemma isNaN_of_magnitude_le {x : Float} (h : magnitude x ≤ infinityBits) : x.isNaN = false := by
  rcases h.lt_or_eq with hlt | heq
  · exact isNaN_of_isFinite ((isFinite_iff x).2 hlt)
  · exact isNaN_of_magnitude_eq heq

/-- The double nearest to a quotient is a number. -/
lemma isNaN_nearest (negative : Bool) (num den : Nat) : (nearest negative num den).isNaN = false :=
  isNaN_of_magnitude_le <| by
    rw [nearest, magnitude_ofMagnitude]
    exact nearestBits_le num den

lemma isNaN_ofInt (n : Int) : (ofInt n).isNaN = false :=
  isNaN_nearest _ _ _

end Binary64

/-! ### How numbers are written -/

/-- The label of a number is a word or the text of a numeral. -/
lemma numberLabel_cases (x : Float) :
    x.isNaN = true ∧ numberLabel x = "NaN" ∨ numberLabel x = "-Infinity" ∨
    numberLabel x = "Infinity" ∨
    ∃ n : Json.Numeral, n.WellFormed ∧ (numberLabel x).toList = n.text := by
  unfold numberLabel
  split
  · next hnan => exact .inl ⟨hnan, rfl⟩
  next hnan =>
  split
  · split
    · exact .inr (.inl rfl)
    · exact .inr (.inr (.inl rfl))
  next hinf =>
  refine .inr (.inr (.inr ?_))
  split
  · exact ⟨_, NumberFormat.wellFormed_zeroNumeral NumberFormat.label false, rfl⟩
  · have hfinite : x.isFinite = true := by
      rw [Binary64.isFinite_eq, Bool.eq_false_iff.2 hnan, Bool.eq_false_iff.2 hinf]
      rfl
    refine ⟨_, NumberFormat.wellFormed_numeral NumberFormat.label hfinite, ?_⟩
    rw [String.toList_ofList, NumberFormat.text_numeral]

/-- The text of a number is not empty. -/
lemma numberLabel_ne_empty (x : Float) : numberLabel x ≠ "" := by
  rcases numberLabel_cases x with ⟨-, heq⟩ | heq | heq | ⟨n, hn, heq⟩
  · rw [heq]
    decide
  · rw [heq]
    decide
  · rw [heq]
    decide
  · intro hempty
    rw [hempty] at heq
    exact Json.Numeral.text_ne_nil hn heq.symm

/-- Numbers are written with letters and the characters of numerals. -/
lemma isNumeric_of_mem_numberLabel {x : Float} {c : Char} (h : c ∈ (numberLabel x).toList) :
    (c.isAlpha || Json.Numeral.isNumeric c) = true := by
  have hword (word : String)
      (htable : (word.toList.all fun c => c.isAlpha || Json.Numeral.isNumeric c) = true)
      (heq : numberLabel x = word) : (c.isAlpha || Json.Numeral.isNumeric c) = true :=
    List.all_eq_true.1 htable c (heq ▸ h)
  rcases numberLabel_cases x with ⟨-, heq⟩ | heq | heq | ⟨n, hn, heq⟩
  · exact hword _ (by decide) heq
  · exact hword _ (by decide) heq
  · exact hword _ (by decide) heq
  · rw [heq] at h
    rw [Json.Numeral.isNumeric_of_mem_text hn c h, Bool.or_true]

/-- Only NaN is written with a capital `N`. -/
theorem not_mem_numberLabel {x : Float} (h : x.isNaN = false) : 'N' ∉ (numberLabel x).toList := by
  rcases numberLabel_cases x with ⟨hnan, -⟩ | heq | heq | ⟨n, hn, heq⟩
  · rw [h] at hnan
    contradiction
  · rw [heq]
    decide
  · rw [heq]
    decide
  · rw [heq]
    intro hmem
    have hnumeric := Json.Numeral.isNumeric_of_mem_text hn 'N' hmem
    contradiction

end PlotAnnotation
