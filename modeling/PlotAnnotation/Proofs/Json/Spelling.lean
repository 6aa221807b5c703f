import PlotAnnotation.Proofs.Json.Numeral

/-!
# Numerals in any spelling

A number can be spelled in many ways: with zeros at the end of a fraction, with a letter of either
case before the exponent, with or without a sign after it.  `Numeral.text` is only one of them.
What is said here holds of every text that is read as a numeral: it has no characters but those of
numerals (`isSpelling_of_ofChars?`), and the number it stands for is the double that its decimal is
read as, if it is taken for a double (`toFloat_of_value?`).
-/

namespace PlotAnnotation.Json.Numeral

/-! ### The characters of a numeral -/

/-- The characters that a numeral can be spelled with. -/
def isSpelling (c : Char) : Bool :=
  isNumeric c || c == 'E'

/-- What a reader took from the front of a text can be part of a numeral. -/
def Takes (cs rest : List Char) : Prop :=
  ∀ c ∈ cs, isSpelling c = true ∨ c ∈ rest

/-- A reader may take nothing. -/
lemma Takes.refl (cs : List Char) : Takes cs cs :=
  fun _ hc => .inr hc

/-- A reader may take one more character of a numeral. -/
lemma Takes.cons {c : Char} {cs rest : List Char} (hc : isSpelling c = true)
    (h : Takes cs rest) : Takes (c :: cs) rest := by
  intro d hd
  rcases List.mem_cons.1 hd with rfl | hd
  · exact .inl hc
  · exact h d hd

/-- One reader after another takes what can be part of a numeral, if both do. -/
lemma Takes.trans {cs ds es : List Char} (h : Takes cs ds) (h' : Takes ds es) : Takes cs es := by
  intro c hc
  rcases h c hc with hspelling | hmem
  · exact .inl hspelling
  · exact h' c hmem

/-- The sign that is read can be part of a numeral. -/
lemma takes_readSign (cs : List Char) : Takes cs (readSign cs).2 := by
  unfold readSign
  split
  · exact .cons (by decide) (.refl _)
  · exact .refl _

/-- The digits that are read can be part of a numeral. -/
lemma takes_digits {cs ds rest : List Char} (h : digits cs = some (ds, rest)) :
    Takes cs rest := by
  unfold digits at h
  simp only [Option.ite_none_left_eq_some, Option.some.injEq, Prod.mk.injEq] at h
  obtain ⟨-, -, rfl⟩ := h
  intro c hc
  rw [← List.takeWhile_append_dropWhile (p := Char.isDigit) (l := cs)] at hc
  rcases List.mem_append.1 hc with hc | hc
  · have hdigit := List.mem_takeWhile_imp hc
    exact .inl (by simp [isSpelling, isNumeric, hdigit])
  · exact .inr hc

/-- The fraction that is read can be part of a numeral. -/
lemma takes_readFraction {cs rest : List Char} {fraction : Option (List Char)}
    (h : readFraction cs = some (fraction, rest)) : Takes cs rest := by
  unfold readFraction at h
  split at h
  · obtain ⟨⟨ds, rest'⟩, hdigits, heq⟩ := Option.map_eq_some_iff.1 h
    obtain ⟨-, rfl⟩ := Prod.mk.inj heq
    exact .cons (by decide) (takes_digits hdigits)
  · obtain ⟨-, rfl⟩ := Prod.mk.inj (Option.some.inj h)
    exact .refl _

/-- The sign of an exponent that is read can be part of a numeral. -/
lemma takes_readExponentSign (cs : List Char) : Takes cs (readExponentSign cs).2 := by
  unfold readExponentSign
  split
  · exact .cons (by decide) (.refl _)
  · exact .cons (by decide) (.refl _)
  · exact .refl _

/-- The exponent that is read can be part of a numeral. -/
lemma takes_readExponent {cs rest : List Char} {exponent : Option (Bool × List Char)}
    (h : readExponent cs = some (exponent, rest)) : Takes cs rest := by
  unfold readExponent at h
  split at h
  · next c cs =>
    split at h
    · next hletter =>
      obtain ⟨⟨ds, rest'⟩, hdigits, heq⟩ := Option.map_eq_some_iff.1 h
      obtain ⟨-, rfl⟩ := Prod.mk.inj heq
      refine .cons ?_ ((takes_readExponentSign cs).trans (takes_digits hdigits))
      rcases hletter with rfl | rfl <;> decide
    · obtain ⟨-, rfl⟩ := Prod.mk.inj (Option.some.inj h)
      exact .refl _
  · obtain ⟨-, rfl⟩ := Prod.mk.inj (Option.some.inj h)
    exact .refl _

/-- The parts of a text that is read as a numeral, one after the other. -/
lemma exists_of_ofChars? {cs : List Char} {n : Numeral} (h : ofChars? cs = some n) :
    ∃ rest rest', digits (readSign cs).2 = some (n.whole, rest) ∧
      readFraction rest = some (n.fraction, rest') ∧
      readExponent rest' = some (n.exponent, []) := by
  simp only [ofChars?, Option.bind_eq_bind, Option.bind_eq_some_iff] at h
  obtain ⟨⟨whole, rest⟩, hwhole, ⟨fraction, rest'⟩, hfraction, ⟨exponent, rest''⟩, hexponent, h⟩ :=
    h
  simp only [Option.ite_none_right_eq_some] at h
  obtain ⟨⟨rfl, -⟩, h⟩ := h
  obtain rfl := Option.some.inj h
  exact ⟨rest, rest', hwhole, hfraction, hexponent⟩

/-- A text that is read as a numeral has no other characters than these. -/
theorem isSpelling_of_ofChars? {cs : List Char} {n : Numeral} (h : ofChars? cs = some n) :
    ∀ c ∈ cs, isSpelling c = true := by
  obtain ⟨rest, rest', hwhole, hfraction, hexponent⟩ := exists_of_ofChars? h
  have htakes : Takes cs [] :=
    (takes_readSign cs).trans <| (takes_digits hwhole).trans <|
      (takes_readFraction hfraction).trans (takes_readExponent hexponent)
  intro c hc
  exact (htakes c hc).resolve_right List.not_mem_nil

/-- No numeral is read from nothing. -/
lemma ne_nil_of_ofChars? {cs : List Char} {n : Numeral} (h : ofChars? cs = some n) : cs ≠ [] := by
  rintro rfl
  obtain ⟨rest, rest', hwhole, -, -⟩ := exists_of_ofChars? h
  contradiction

/-! ### What a numeral stands for -/

/-- No fraction and no exponent are written. -/
def IsInteger (n : Numeral) : Prop :=
  n.fraction = none ∧ n.exponent = none

/-- The integer that is written before fraction and exponent. -/
def integer (n : Numeral) : ℤ :=
  if n.negative then -digitsValue n.whole else digitsValue n.whole

/-- The rational number that is written. -/
def rational (n : Numeral) : ℚ :=
  if n.negative then -n.decimal.value else n.decimal.value

/-- An integer has no digits but those before the point. -/
lemma coefficient_of_isInteger {n : Numeral} (h : n.IsInteger) :
    n.coefficient = digitsValue n.whole := by
  rw [coefficient, h.1, Option.getD_none, List.append_nil, digitsValue]

/-- The digits of an integer are not scaled. -/
lemma scale_of_isInteger {n : Numeral} (h : n.IsInteger) : n.scale = 0 := by
  unfold scale
  rw [h.1, h.2]
  rfl

/-- The numeral of an integer has the integer as its value. -/
lemma rational_of_isInteger {n : Numeral} (h : n.IsInteger) : n.rational = n.integer := by
  unfold rational integer decimal
  rw [coefficient_of_isInteger h, scale_of_isInteger h]
  split <;> simp [Decimal.value]

/-- A numeral stands for the integer that it is, or for the double that its decimal is read as.  The
latter is so for an integer only if it has not 64 bits, or is zero with a sign. -/
theorem value?_cases {n : Numeral} {a : Number} (h : n.value? = some a) :
    (n.IsInteger ∧ (n.negative = true → n.integer ≠ 0) ∧
      ∃ lower upper, a = .int n.integer lower upper) ∨
    ((n.IsInteger → n.integer = 0 ∨ n.integer < -2 ^ 63 ∨ 2 ^ 64 ≤ n.integer) ∧
      ∃ finite, a = .float (Decimal.toFloat n.negative n.decimal) finite) := by
  have hfloat (hf : n.float? = some a) :
      ∃ finite, a = .float (Decimal.toFloat n.negative n.decimal) finite := by
    simp only [float?, Option.dite_none_right_eq_some, Option.some.injEq] at hf
    obtain ⟨finite, rfl⟩ := hf
    exact ⟨finite, rfl⟩
  have hinteger (hn : n.IsInteger) :
      (if n.negative then -(n.coefficient : ℤ) else n.coefficient) = n.integer := by
    rw [coefficient_of_isInteger hn, integer]
  unfold value? at h
  by_cases hplain : n.fraction = none ∧ n.exponent = none ∧ ¬(n.negative = true ∧ n.coefficient = 0)
  · have hn : n.IsInteger := ⟨hplain.1, hplain.2.1⟩
    simp only [if_pos hplain, hinteger hn] at h
    split at h
    · next hrange =>
      obtain rfl := Option.some.inj h
      refine .inl ⟨hn, fun hnegative hzero => hplain.2.2 ⟨hnegative, ?_⟩, hrange.1, hrange.2, rfl⟩
      rw [← hinteger hn, if_pos hnegative] at hzero
      omega
    · next hrange => exact .inr ⟨fun _ => by omega, hfloat h⟩
  · rw [if_neg hplain] at h
    refine .inr ⟨fun hn => .inl ?_, hfloat h⟩
    obtain ⟨hnegative, hzero⟩ : n.negative = true ∧ n.coefficient = 0 := by
      by_contra hsigned
      exact hplain ⟨hn.1, hn.2, hsigned⟩
    rw [← hinteger hn, if_pos hnegative, hzero]
    rfl

/-- An integer has the sign that is written, unless it is zero. -/
lemma isNegative_ofInt_integer {n : Numeral} (h : n.negative = true → n.integer ≠ 0) :
    Binary64.isNegative (Binary64.ofInt n.integer) = n.negative := by
  rw [Binary64.ofInt, Binary64.nearest, Binary64.isNegative_ofMagnitude]
  cases hcase : n.negative with
  | false =>
    rw [integer, hcase]
    exact decide_eq_false (by simp)
  | true =>
    have hne := h hcase
    rw [integer, hcase, if_pos rfl] at hne ⊢
    exact decide_eq_true (by omega)

/-- An integer is rounded to the magnitude that its decimal is read as. -/
lemma bits_of_isInteger {n : Numeral} (h : n.IsInteger) :
    n.decimal.bits = Binary64.magnitude (Binary64.ofInt n.integer) := by
  have habs : n.integer.natAbs = digitsValue n.whole := by
    unfold integer
    split <;> omega
  rw [Binary64.ofInt, Binary64.nearest, Binary64.magnitude_ofMagnitude, habs,
    Binary64.nearestBits_eq_round Nat.one_pos, Decimal.bits_eq_round, decimal,
    coefficient_of_isInteger h, scale_of_isInteger h]
  simp [Decimal.value]

/-- The double nearest to the number of a numeral is what its decimal is read as. -/
theorem toFloat_of_value? {n : Numeral} {a : Number} (h : n.value? = some a) :
    a.toFloat = Decimal.toFloat n.negative n.decimal := by
  rcases value?_cases h with ⟨hn, hsigned, lower, upper, rfl⟩ | ⟨-, finite, rfl⟩
  · rw [← isNegative_ofInt_integer hsigned]
    exact (Decimal.toFloat_eq (bits_of_isInteger hn)).symm
  · rfl

end PlotAnnotation.Json.Numeral
