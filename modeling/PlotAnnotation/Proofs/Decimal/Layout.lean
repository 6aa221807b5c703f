import PlotAnnotation.Proofs.Decimal.Label
import PlotAnnotation.Proofs.Decimal.Shortest
import PlotAnnotation.Proofs.Decimal.Sign
import PlotAnnotation.Proofs.Json.Spelling

/-!
# The layout of numbers in labels

A finite double that is not zero is written as the numeral of its shortest decimal.  The exponent of
the first digit alone says how (`layout_numeral`): from a millionth to below `10 ^ 21` the digits
are written out in full, otherwise as a mantissa with one digit before the point and an exponent.

Whichever layout is taken, the text is read back as the double.  So different doubles have different
texts, except for the two zeros (`numberLabel_eq_iff`).
-/

namespace PlotAnnotation

open Binary64 Json

/-! ### Layouts -/

namespace Json.Numeral

/-- A numeral that is written out in full: without an exponent, without zeros at the end of the
fraction, and with a point only if it is no integer. -/
structure IsPlain (n : Numeral) : Prop where
  exponent : n.exponent = none
  fraction : ∀ ds, n.fraction = some ds → ds.getLast? ≠ some '0'
  point : n.fraction = none ↔ ∃ k : ℤ, n.rational = k

/-- A numeral with one digit before the point, no zeros at the end of the fraction, and the given
exponent. -/
structure IsScientific (n : Numeral) (e : ℤ) : Prop where
  whole : n.whole.length = 1
  fraction : ∀ ds, n.fraction = some ds → ds.getLast? ≠ some '0'
  exponent : n.exponent = some (decide (e < 0), Nat.toDigits 10 e.natAbs)

/-- Digits that do not end in a zero write no multiple of ten. -/
lemma digitsValue_mod_ne {ds : List Char} (h : IsDigits ds) (hlast : ds.getLast? ≠ some '0') :
    digitsValue ds % 10 ≠ 0 := by
  obtain ⟨cs, c, rfl⟩ : ∃ cs c, ds = cs ++ [c] :=
    ⟨ds.dropLast, ds.getLast h.1, (List.dropLast_append_getLast h.1).symm⟩
  have hdigit : c.isDigit = true := h.2 c (by simp)
  have hne : c.toNat ≠ '0'.toNat := by
    intro heq
    obtain rfl := Char.toNat_inj.1 heq
    exact hlast (by simp)
  have hvalue : digitsValue [c] = c.toNat - '0'.toNat := by
    simp [digitsValue, Nat.ofDigitChars]
  have hzero : '0'.toNat = 48 := rfl
  have hnine : '9'.toNat = 57 := rfl
  rw [Char.isDigit_iff_toNat, hzero, hnine] at hdigit
  rw [digitsValue_append, hvalue, List.length_singleton, hzero]
  omega

/-- A numeral without an exponent and without zeros at the end of a fraction has a point exactly if
it is no integer. -/
lemma fraction_eq_none_iff {n : Numeral} (h : n.WellFormed) (hexponent : n.exponent = none)
    (htrimmed : ∀ ds, n.fraction = some ds → ds.getLast? ≠ some '0') :
    n.fraction = none ↔ ∃ k : ℤ, n.rational = k := by
  constructor
  · intro hfraction
    exact ⟨n.integer, rational_of_isInteger ⟨hfraction, hexponent⟩⟩
  rintro ⟨k, hk⟩
  by_contra hsome
  obtain ⟨ds, hds⟩ := Option.ne_none_iff_exists'.1 hsome
  have hdigits := h.fraction ds hds
  have hlength := List.length_pos_iff.2 hdigits.1
  -- the digits would write the integer with zeros after it
  have hvalue : n.decimal.value = digitsValue (n.whole ++ ds) / 10 ^ ds.length := by
    rw [decimal, Decimal.value, coefficient, scale, hexponent, hds]
    simp only [Option.getD_some, zero_sub, zpow_neg, zpow_natCast]
    rw [← digitsValue, div_eq_mul_inv]
  have habs : n.decimal.value = k.natAbs := by
    have hnonneg : 0 ≤ n.decimal.value := by
      rw [hvalue]
      positivity
    rw [Nat.cast_natAbs, Int.cast_abs, ← hk, rational]
    split
    · rw [abs_neg, abs_of_nonneg hnonneg]
    · rw [abs_of_nonneg hnonneg]
  rw [hvalue, div_eq_iff (by positivity)] at habs
  have hmultiple : digitsValue (n.whole ++ ds) = k.natAbs * 10 ^ ds.length := by exact_mod_cast habs
  obtain ⟨l, hl⟩ : ∃ l, ds.length = l + 1 := ⟨ds.length - 1, by omega⟩
  have hmod := digitsValue_mod_ne (h.whole.append hdigits.2)
    (by rw [List.getLast?_append_of_ne_nil _ hdigits.1]; exact htrimmed ds hds)
  rw [hmultiple, hl, pow_succ, ← mul_assoc, Nat.mul_mod_left] at hmod
  contradiction

end Json.Numeral

namespace NumberFormat

/-- Without the zeros at their end, digits do not end in a zero. -/
lemma getLast?_dropZeros (digits : List Char) : (dropZeros digits).getLast? ≠ some '0' := by
  rw [dropZeros, List.getLast?_reverse]
  intro hhead
  have hnot := List.head?_dropWhile_not (· == '0') digits.reverse
  rw [hhead] at hnot
  contradiction

/-- The first digit of the shortest decimal has the first exponent. -/
lemma zpow_firstExponent_le (f : NumberFormat) {bits : ℕ} (hpos : 0 < bits)
    (hfinite : bits < infinityBits) :
    (10 : ℚ) ^ f.firstExponent bits ≤ (Decimal.shortest f.tie bits).value ∧
      (Decimal.shortest f.tie bits).value < 10 ^ (f.firstExponent bits + 1) := by
  have hc := coefficient_shortest_pos f hpos hfinite
  unfold firstExponent Decimal.value
  generalize (Decimal.shortest f.tie bits).coefficient = c at hc ⊢
  generalize (Decimal.shortest f.tie bits).exponent = e
  have hcount : Decimal.digitCount c = (Nat.toDigits 10 c).length := if_neg hc.ne'
  obtain ⟨k, hk, hlow, hhigh⟩ := Decimal.exists_digitCount hc
  replace hlow : ((10 ^ k : ℕ) : ℚ) ≤ c := by exact_mod_cast hlow
  replace hhigh : (c : ℚ) < (10 ^ (k + 1) : ℕ) := by exact_mod_cast hhigh
  have hten := Decimal.ten_zpow_pos e
  have hpower (l : ℕ) : ((10 ^ l : ℕ) : ℚ) * 10 ^ e = 10 ^ (e + l) := by
    rw [Nat.cast_pow, Nat.cast_ofNat, zpow_add₀ (by norm_num), zpow_natCast, mul_comm]
  rw [← hcount, hk]
  constructor
  · have hexponent : e + (k + 1 : ℕ) - 1 = e + k := by omega
    rw [hexponent, ← hpower]
    exact mul_le_mul_of_nonneg_right hlow hten.le
  · rw [sub_add_cancel, ← hpower]
    exact mul_lt_mul_of_pos_right hhigh hten

section Layout

variable {f : NumberFormat} {negative : Bool} {digits : List Char} {e : ℤ}

lemma exponent_plainNumeral : (f.plainNumeral negative digits e).exponent = none := by
  unfold plainNumeral
  split
  · rfl
  split <;> rfl

/-- Where whole numbers keep no fraction, no fraction ends in a zero if the digits do not. -/
lemma getLast?_fraction_plainNumeral (hpointed : f.pointed = false) (hne : digits ≠ [])
    (hlast : digits.getLast? ≠ some '0') {ds : List Char}
    (h : (f.plainNumeral negative digits e).fraction = some ds) : ds.getLast? ≠ some '0' := by
  unfold plainNumeral at h
  split at h
  · obtain rfl := Option.some.inj h
    rwa [List.getLast?_append_of_ne_nil _ hne]
  split at h
  · rw [hpointed] at h
    contradiction
  · next hlength =>
    obtain rfl := Option.some.inj h
    rwa [List.getLast?_drop, if_neg hlength]

/-- A scientific numeral is laid out as one, if its digits do not end in a zero. -/
lemma isScientific_scientificNumeral (hne : digits ≠ []) (hlast : digits.getLast? ≠ some '0') :
    (scientificNumeral negative digits e).IsScientific e where
  whole := by
    have := List.length_pos_iff.2 hne
    simp only [scientificNumeral, List.length_take]
    omega
  fraction ds h := by
    simp only [scientificNumeral, Option.ite_none_left_eq_some, Option.some.injEq,
      List.drop_eq_nil_iff] at h
    obtain ⟨hlength, rfl⟩ := h
    rwa [List.getLast?_drop, if_neg hlength]
  exponent := rfl

/-- Labels are plain from a millionth up to 21 digits before the point. -/
lemma isPlain_label_iff : label.isPlain e = true ↔ -6 ≤ e ∧ e ≤ 20 := by
  simp [isPlain, label]

/-- The exponent of the first digit says which layout is taken. -/
lemma layout_numeral {x : Float} (hx : x.isFinite = true) (hpos : 0 < magnitude x) :
    let e := label.firstExponent (magnitude x)
    ((label.numeral x).IsPlain ↔ -6 ≤ e ∧ e ≤ 20) ∧
      (¬(-6 ≤ e ∧ e ≤ 20) → (label.numeral x).IsScientific e) := by
  intro e
  have hdigits := isDigits_shortestDigits label hpos ((isFinite_iff x).1 hx)
  have hlast : (label.shortestDigits (magnitude x)).getLast? ≠ some '0' := getLast?_dropZeros _
  have hwellFormed := wellFormed_numeral label hx
  rw [← isPlain_label_iff]
  rcases Bool.eq_false_or_eq_true (label.isPlain e) with hplain | hplain
  · have hnumeral : label.numeral x = label.plainNumeral (isNegative x)
        (label.shortestDigits (magnitude x)) e := by
      rw [numeral, if_neg hpos.ne', if_pos hplain]
    rw [hnumeral] at hwellFormed ⊢
    have htrimmed : ∀ ds, (label.plainNumeral (isNegative x) (label.shortestDigits (magnitude x))
        e).fraction = some ds → ds.getLast? ≠ some '0' :=
      fun _ => getLast?_fraction_plainNumeral rfl hdigits.1 hlast
    refine ⟨iff_of_true ⟨exponent_plainNumeral, htrimmed, ?_⟩ hplain, absurd hplain⟩
    exact Numeral.fraction_eq_none_iff hwellFormed exponent_plainNumeral htrimmed
  · have hnot : ¬label.isPlain e = true := by rw [hplain]; exact Bool.false_ne_true
    have hnumeral : label.numeral x = scientificNumeral (isNegative x)
        (label.shortestDigits (magnitude x)) e := by
      rw [numeral, if_neg hpos.ne', if_neg hnot]
    rw [hnumeral]
    refine ⟨iff_of_false (fun h => ?_) hnot, fun _ =>
      isScientific_scientificNumeral hdigits.1 hlast⟩
    have hexponent := h.exponent
    contradiction

end Layout

end NumberFormat

/-! ### Integers -/

/-- With a digit after the point, a number lies below the power of ten of its first digit. -/
lemma Decimal.mul_zpow_lt {c t : ℕ} {e : ℤ} (hc : c < 10 ^ (t + 1)) (he : e < 0) :
    (c : ℚ) * 10 ^ e < 10 ^ (t : ℤ) := by
  calc (c : ℚ) * 10 ^ e < (10 ^ (t + 1) : ℕ) * 10 ^ e :=
        mul_lt_mul_of_pos_right (by exact_mod_cast hc) (Decimal.ten_zpow_pos e)
    _ = 10 ^ ((t + 1 : ℕ) + e : ℤ) := by
        rw [zpow_add₀ (by norm_num), zpow_natCast]
        push_cast
        rfl
    _ ≤ 10 ^ (t : ℤ) := zpow_le_zpow_right₀ (by norm_num) (by omega)

/-- The shortest decimal of an integer is one.  If it had digits after the point, it would lie below
the power of ten that the integer starts with, which is written with one digit and is nearer. -/
lemma Decimal.IsShortest.exists_natCast {d : Decimal} {bits m : ℕ} (hpos : 0 < bits)
    (hfinite : bits < infinityBits) (h : d.IsShortest bits) (hm : Binary64.value bits = m) :
    ∃ k : ℕ, d.value = k := by
  have hmpos : (0 : ℚ) < m := hm ▸ Decimal.value_pos hpos
  obtain ⟨t, -, hlow, hhigh⟩ := Decimal.exists_digitCount (n := m) (by exact_mod_cast hmpos)
  have hstart : (10 : ℚ) ^ (t : ℤ) ≤ m := by
    rw [zpow_natCast]
    exact_mod_cast hlow
  have hwhole : (⟨m, 0⟩ : Decimal).value = m := by simp [Decimal.value]
  have hreads : (⟨m, 0⟩ : Decimal).bits = bits := by
    rw [Decimal.bits_eq_round, hwhole, ← hm, round_value hfinite]
  obtain ⟨c, e, hc, hvalue⟩ := h.fewest ⟨m, 0⟩ hreads (t + 1)
    ⟨m, 0, hhigh, rfl⟩
  rcases le_or_gt 0 e with he | he
  · refine ⟨c * 10 ^ e.toNat, ?_⟩
    rw [hvalue, ← Int.toNat_of_nonneg he, zpow_natCast]
    push_cast
    rfl
  exfalso
  have hbelow : d.value < 10 ^ (t : ℤ) := hvalue ▸ Decimal.mul_zpow_lt hc he
  have hpower : (⟨1, t⟩ : Decimal).value = 10 ^ (t : ℤ) := by simp [Decimal.value]
  have hnearer := h.nearest ⟨1, t⟩
    (Decimal.bits_eq_of_between hfinite h.bits_eq (.inl ⟨by rw [hpower]; exact hbelow.le,
      by rw [hpower, hm]; exact hstart⟩))
  rw [hpower, hm, abs_sub_comm, abs_of_nonneg (by linarith), abs_sub_comm,
    abs_of_nonneg (by linarith)] at hnearer
  have hfew : ∀ k, Decimal.FitsIn k d.value → Decimal.FitsIn k (10 ^ (t : ℤ)) := fun k hk =>
    (Decimal.fitsIn_ten_zpow _).mono (Decimal.pos_of_fitsIn hpos h.bits_eq hk)
  linarith [hnearer hfew]

/-- The numeral of a double that is an integer is one. -/
lemma NumberFormat.exists_rational_numeral (f : NumberFormat) {x : Float}
    (hx : x.isFinite = true) (hpos : 0 < magnitude x) (h : ∃ k : ℤ, Binary64.rational x = k) :
    ∃ k : ℤ, (f.numeral x).rational = k := by
  obtain ⟨k, hk⟩ := h
  have hfinite := (isFinite_iff x).1 hx
  have hvalue : Binary64.value (magnitude x) = k.natAbs := by
    rw [Nat.cast_natAbs, Int.cast_abs, ← hk, Binary64.rational]
    split
    · rw [abs_neg, abs_of_pos (Decimal.value_pos hpos)]
    · rw [abs_of_pos (Decimal.value_pos hpos)]
  obtain ⟨m, hm⟩ := (Decimal.isShortest_shortest f.tie hpos hfinite).exists_natCast hpos hfinite
    hvalue
  rw [Numeral.rational, f.value_numeral hx hpos, hm]
  split
  · exact ⟨-m, by push_cast; rfl⟩
  · exact ⟨m, rfl⟩

/-! ### Labels read back -/

/-- The double that the text of a number is read as, rounded to nearest. -/
def numberValue? (text : String) : Option Float :=
  (Numeral.ofChars? text.toList).map fun n => Decimal.toFloat n.negative n.decimal

/-- A finite double that is not zero is written as its numeral. -/
lemma toList_numberLabel {x : Float} (hx : x.isFinite = true) (hpos : 0 < magnitude x) :
    (numberLabel x).toList = NumberFormat.label.write x := by
  have hnan := isNaN_of_isFinite hx
  have hinf : x.isInf = false := by
    rw [isFinite_eq, hnan] at hx
    simpa using hx
  rw [numberLabel, hnan, hinf, magnitude_pos_iff.1 hpos, if_neg Bool.false_ne_true,
    if_neg Bool.false_ne_true, if_neg Bool.false_ne_true, String.toList_ofList]

/-- Zero is labelled the same with either sign. -/
lemma numberLabel_of_beq_zero {x : Float} (h : (x == 0) = true) : numberLabel x = "0" := by
  rcases (Float.beq_iff_ne_nan_and_eq.1 h).2.2 with rfl | ⟨rfl, -⟩ | ⟨rfl, -⟩ <;> decide +kernel

/-- A finite double is read back from its label, but zero always without its sign. -/
lemma numberValue?_numberLabel {x : Float} (hx : x.isFinite = true) :
    numberValue? (numberLabel x) = some (if x == 0 then 0 else x) := by
  split
  · next hzero =>
    rw [numberLabel_of_beq_zero hzero]
    decide +kernel
  · next hzero =>
    have hpos := magnitude_pos_iff.2 (Bool.eq_false_iff.2 hzero)
    rw [numberValue?, toList_numberLabel hx hpos, ← NumberFormat.text_numeral,
      Numeral.ofChars?_text (NumberFormat.wellFormed_numeral _ hx), Option.map_some,
      NumberFormat.negative_numeral, Decimal.toFloat_eq (NumberFormat.bits_numeral _ hx)]

/-- What is not finite is `NaN` or one of the two infinities, and written as a word. -/
lemma numberLabel_of_not_isFinite {x : Float} (hx : ¬x.isFinite = true) :
    x.isNaN = true ∧ numberLabel x = "NaN" ∨
    ∃ negative, x = ofMagnitude negative infinityBits le_rfl ∧
      numberLabel x = if negative then "-Infinity" else "Infinity" := by
  rcases Bool.eq_false_or_eq_true x.isNaN with hnan | hnan
  · left
    rw [numberLabel, if_pos hnan]
    exact ⟨hnan, rfl⟩
  right
  have hinf : x.isInf = true := by
    rw [isFinite_eq, hnan] at hx
    simpa using hx
  change x.toModel.unpack.isInf = true at hinf
  cases hunpack : x.toModel.unpack with
  | notANumber =>
    rw [hunpack] at hinf
    contradiction
  | zero s =>
    rw [hunpack] at hinf
    contradiction
  | finite s m e hm =>
    rw [hunpack] at hinf
    contradiction
  | infinity s =>
    cases s with
    | negative =>
      obtain rfl : x = ofMagnitude true infinityBits le_rfl := eq_of_unpack_eq hunpack
      exact ⟨true, rfl, by decide⟩
    | positive =>
      obtain rfl : x = ofMagnitude false infinityBits le_rfl := eq_of_unpack_eq hunpack
      exact ⟨false, rfl, by decide⟩

/-- Words are read as no number. -/
lemma numberValue?_of_not_isFinite {x : Float} (hx : ¬x.isFinite = true) :
    numberValue? (numberLabel x) = none := by
  rcases numberLabel_of_not_isFinite hx with ⟨-, hlabel⟩ | ⟨negative, -, hlabel⟩
  · rw [hlabel]
    decide
  · rw [hlabel]
    cases negative <;> decide

/-! ### Equal labels -/

/-- Equal numbers have the same label. -/
lemma numberLabel_congr {x y : Float} (h : (x == y) = true) : numberLabel x = numberLabel y := by
  rcases (Float.beq_iff_ne_nan_and_eq.1 h).2.2 with rfl | ⟨rfl, rfl⟩ | ⟨rfl, rfl⟩
  · rfl
  · decide +kernel
  · decide +kernel

/-- Finite doubles with the same label are equal numbers, as both are read from it. -/
lemma beq_of_numberLabel_eq {x y : Float} (hx : x.isFinite = true) (hy : y.isFinite = true)
    (h : numberLabel x = numberLabel y) : (x == y) = true := by
  -- what is read from the label of a number is equal to it, also if it is a zero without its sign
  have hread (z : Float) (hz : z.isFinite = true) : (z == if z == 0 then 0 else z) = true := by
    split
    · next hzero => exact hzero
    · exact beq_self_of_isNaN (isNaN_of_isFinite hz)
  have heq := congrArg numberValue? h
  rw [numberValue?_numberLabel hx, numberValue?_numberLabel hy, Option.some_inj] at heq
  have hxy := hread x hx
  rw [heq] at hxy
  exact PartialEquivBEq.trans hxy (PartialEquivBEq.symm (hread y hy))

/-- Doubles that are not finite have the same label if they are the same infinity or both `NaN`. -/
lemma eq_or_isNaN_of_numberLabel_eq {x y : Float} (hx : ¬x.isFinite = true)
    (hy : ¬y.isFinite = true) (h : numberLabel x = numberLabel y) :
    x = y ∧ x.isNaN = false ∨ x.isNaN = true ∧ y.isNaN = true := by
  rcases numberLabel_of_not_isFinite hx with ⟨hnanx, hlabelx⟩ | ⟨s, rfl, hlabelx⟩ <;>
    rcases numberLabel_of_not_isFinite hy with ⟨hnany, hlabely⟩ | ⟨t, rfl, hlabely⟩ <;>
    rw [hlabelx, hlabely] at h
  · exact .inr ⟨hnanx, hnany⟩
  · cases t <;> contradiction
  · cases s <;> contradiction
  · refine .inl ⟨?_, isNaN_of_magnitude_le (magnitude_ofMagnitude _).le⟩
    cases s <;> cases t <;> first | rfl | contradiction

/-- Two doubles have the same label exactly if they are equal numbers or both `NaN`. -/
lemma numberLabel_eq_iff {x y : Float} :
    numberLabel x = numberLabel y ↔ (x == y) = true ∨ x.isNaN = true ∧ y.isNaN = true := by
  constructor
  · intro h
    by_cases hx : x.isFinite = true <;> by_cases hy : y.isFinite = true
    · exact .inl (beq_of_numberLabel_eq hx hy h)
    · have hread := numberValue?_numberLabel hx
      rw [h, numberValue?_of_not_isFinite hy] at hread
      contradiction
    · have hread := numberValue?_numberLabel hy
      rw [← h, numberValue?_of_not_isFinite hx] at hread
      contradiction
    · rcases eq_or_isNaN_of_numberLabel_eq hx hy h with ⟨rfl, hnan⟩ | hnan
      · exact .inl (beq_self_of_isNaN hnan)
      · exact .inr hnan
  · rintro (h | ⟨hx, hy⟩)
    · exact numberLabel_congr h
    · rw [numberLabel, numberLabel, if_pos hx, if_pos hy]

/-- The label of a number greater than zero is that of its negation after a minus sign. -/
lemma numberLabel_neg {x : Float} (h : 0 < x) : numberLabel (-x) = "-" ++ numberLabel x := by
  by_cases hx : x.isFinite = true
  · obtain ⟨hsign, hminus, hmagnitude⟩ := parts_neg hx h
    have hpos : 0 < magnitude x := by
      rw [magnitude_pos_iff, Bool.eq_false_iff]
      intro hzero
      rcases (Float.beq_iff_ne_nan_and_eq.1 hzero).2.2 with rfl | ⟨rfl, -⟩ | ⟨rfl, -⟩ <;>
        contradiction
    have hx' : (-x).isFinite = true := by rwa [isFinite_iff, hmagnitude, ← isFinite_iff]
    refine String.toList_injective ?_
    rw [String.toList_append, toList_numberLabel hx hpos,
      toList_numberLabel hx' (hpos.trans_eq hmagnitude.symm), NumberFormat.write,
      NumberFormat.write, hmagnitude, hsign, hminus]
    rfl
  · rcases numberLabel_of_not_isFinite hx with ⟨hnan, -⟩ | ⟨negative, rfl, -⟩
    · rw [Float.isNaN_eq_decide_eq_nan, decide_eq_true_iff] at hnan
      subst hnan
      contradiction
    · cases negative with
      | true => contradiction
      | false => decide +kernel

/-! ### The label of a number -/

/-- The numeral `n` is the label of a finite double other than zero.  It writes the shortest decimal
that is read as the double; the exponent `e` of the first digit says in which layout. -/
structure IsLabel (n : Numeral) (e : ℤ) (x : Float) : Prop where
  wellFormed : n.WellFormed
  text : (numberLabel x).toList = n.text
  shortest : (Decimal.shortest .up (magnitude x)).IsShortest (magnitude x)
  rational : n.rational =
    let d := Decimal.shortest .up (magnitude x)
    if isNegative x then -d.value else d.value
  exponent : 10 ^ e ≤ (Decimal.shortest .up (magnitude x)).value ∧
    (Decimal.shortest .up (magnitude x)).value < 10 ^ (e + 1)
  nearest : IsNearest x n.rational
  value : numberValue? (numberLabel x) = some x
  plain : n.IsPlain ↔ -6 ≤ e ∧ e ≤ 20
  scientific : ¬(-6 ≤ e ∧ e ≤ 20) → n.IsScientific e
  integer : (∃ k : ℤ, Binary64.rational x = k) → ∃ k : ℤ, n.rational = k

/-- The numeral of a finite float that is not zero is laid out as labels are. -/
lemma isLabel_numeral {x : Float} (hx : x.isFinite = true) (hzero : (x == 0) = false) :
    IsLabel (NumberFormat.label.numeral x) (NumberFormat.label.firstExponent (magnitude x)) x := by
  have hpos := magnitude_pos_iff.2 hzero
  have hfinite := (isFinite_iff x).1 hx
  have hrational : (NumberFormat.label.numeral x).rational =
      let d := Decimal.shortest .up (magnitude x)
      if isNegative x then -d.value else d.value := by
    rw [Numeral.rational, NumberFormat.negative_numeral, NumberFormat.value_numeral _ hx hpos]
    rfl
  obtain ⟨hplain, hscientific⟩ := NumberFormat.layout_numeral hx hpos
  have hread : Decimal.toFloat (isNegative x) (Decimal.shortest .up (magnitude x)) = x :=
    Decimal.toFloat_eq (Decimal.bits_shortest _ hfinite)
  refine ⟨NumberFormat.wellFormed_numeral _ hx, ?_,
    Decimal.isShortest_shortest _ hpos hfinite, hrational,
    NumberFormat.zpow_firstExponent_le _ hpos hfinite, ?_, ?_, hplain, hscientific,
    NumberFormat.exists_rational_numeral _ hx hpos⟩
  · rw [toList_numberLabel hx hpos, NumberFormat.text_numeral]
  · have hnearest := isNearest_toFloat (hread.symm ▸ hx)
    rwa [hread, ← hrational] at hnearest
  · rw [numberValue?_numberLabel hx, hzero]
    rfl

/-- **Labels spell numbers.**  A finite double other than zero has a label that writes the shortest
decimal of those that are read as the double; the exponent of the first digit alone decides between
the two layouts.  Two doubles have the same label exactly if they are equal numbers or both `NaN`.
Both zeros are `0`, and a sign is a minus sign before the label of the number without it. -/
theorem numberLabel_spells_shortest :
    (∀ x : Float, x.isFinite = true → (x == 0) = false → ∃ n e, IsLabel n e x) ∧
    (∀ x y, numberLabel x = numberLabel y ↔ (x == y) = true ∨ x.isNaN = true ∧ y.isNaN = true) ∧
    (∀ x, (x == 0) = true → numberLabel x = "0") ∧
    ∀ x, 0 < x → numberLabel (-x) = "-" ++ numberLabel x :=
  ⟨fun _ hx hzero => ⟨_, _, isLabel_numeral hx hzero⟩, fun _ _ => numberLabel_eq_iff,
    fun _ => numberLabel_of_beq_zero, fun _ => numberLabel_neg⟩

/-- A number too small to be written out in full, negative zero, and the negation of a number too
large to be written out in full. -/
theorem numberLabel_spells_shortest_extremes :
    (∃ n e, IsLabel n e 1.5e-7) ∧ numberLabel (-0) = "0" ∧
    numberLabel (-2.5e22) = "-" ++ numberLabel 2.5e22 := by
  obtain ⟨hlabel, -, hzero, hneg⟩ := numberLabel_spells_shortest
  refine ⟨hlabel _ ?_ ?_, hzero _ ?_, hneg _ ?_⟩ <;> decide +kernel

end PlotAnnotation
