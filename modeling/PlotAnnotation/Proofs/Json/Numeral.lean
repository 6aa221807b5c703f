import PlotAnnotation.Json.Printer
import PlotAnnotation.Json.Token
import PlotAnnotation.Proofs.Decimal.Digits

/-!
# Numbers written and read

Between a number and its text stands the numeral that the text spells.  `Numeral.text` spells a
numeral, and `ofChars?_text` reads it again.  What the printer writes is the text of a numeral: for
a double, in each of the layouts that its exponent may call for (`plainNumeral`,
`scientificNumeral`), and for an integer.

A double comes back from its numeral because the numeral has the value of the shortest digits, and
these read back.  The main statement is `exists_numeral_write`.
-/

namespace PlotAnnotation.Json

namespace Numeral

/-! ### Spelling a numeral -/

/-- The text of a fraction, after its point. -/
def fractionText : Option (List Char) → List Char
  | none => []
  | some ds => '.' :: ds

/-- The text of an exponent, which always has its sign. -/
def exponentText : Option (Bool × List Char) → List Char
  | none => []
  | some (negative, ds) => 'e' :: (if negative then '-' else '+') :: ds

/-- The text of a numeral. -/
def text (n : Numeral) : List Char :=
  (if n.negative then ['-'] else []) ++
    (n.whole ++ (fractionText n.fraction ++ exponentText n.exponent))

/-- A numeral whose parts are digits, the whole part without leading zeros. -/
structure WellFormed (n : Numeral) : Prop where
  whole : IsDigits n.whole
  leading : n.whole.head? = some '0' → n.whole.length = 1
  fraction : ∀ ds, n.fraction = some ds → IsDigits ds
  exponent : ∀ negative ds, n.exponent = some (negative, ds) → IsDigits ds

/-- The text does not start with a digit. -/
def EndsDigits (cs : List Char) : Prop :=
  ∀ c, cs.head? = some c → c.isDigit = false

/-- Digits end where the text does. -/
lemma endsDigits_nil : EndsDigits [] := by
  intro c hc
  simp at hc

/-- An exponent ends the digits before it, if there is one. -/
lemma endsDigits_exponentText (exponent : Option (Bool × List Char)) :
    EndsDigits (exponentText exponent) := by
  intro c hc
  match exponent with
  | none => simp [exponentText] at hc
  | some (negative, ds) =>
    obtain rfl : 'e' = c := by simpa [exponentText] using hc
    decide

/-- A fraction ends the digits before it, if there is one. -/
lemma endsDigits_fractionText_append (fraction : Option (List Char)) {rest : List Char}
    (h : EndsDigits rest) : EndsDigits (fractionText fraction ++ rest) := by
  intro c hc
  match fraction with
  | none => exact h c hc
  | some ds =>
    obtain rfl : '.' = c := by simpa [fractionText] using hc
    decide

/-! ### Reading a numeral -/

/-- Digits are read up to the first character that is none. -/
lemma digits_append {ds rest : List Char} (h : IsDigits ds) (hrest : EndsDigits rest) :
    digits (ds ++ rest) = some (ds, rest) := by
  rw [digits, takeWhile_isDigit_append h.2 hrest, dropWhile_isDigit_append h.2 hrest]
  exact if_neg h.1

/-- No digit is taken for a sign. -/
lemma readSign_append (negative : Bool) {ds : List Char} (h : IsDigits ds) (rest : List Char) :
    readSign ((if negative then ['-'] else []) ++ (ds ++ rest)) = (negative, ds ++ rest) := by
  cases negative with
  | true => rfl
  | false =>
    obtain ⟨hne, hdigits⟩ := h
    cases ds with
    | nil => contradiction
    | cons d ds =>
      have hd : d ≠ '-' := by
        rintro rfl
        exact absurd (hdigits '-' List.mem_cons_self) (by decide)
      simp [readSign, hd]

/-- A fraction is read up to the exponent. -/
lemma readFraction_append {fraction : Option (List Char)}
    (h : ∀ ds, fraction = some ds → IsDigits ds) (exponent : Option (Bool × List Char)) :
    readFraction (fractionText fraction ++ exponentText exponent) =
      some (fraction, exponentText exponent) := by
  match fraction with
  | none =>
    match exponent with
    | none => rfl
    | some (negative, ds) => simp [fractionText, exponentText, readFraction]
  | some ds =>
    simp [fractionText, readFraction,
      digits_append (h ds rfl) (endsDigits_exponentText exponent)]

/-- An exponent is read to the end of the text. -/
lemma readExponent_exponentText {exponent : Option (Bool × List Char)}
    (h : ∀ negative ds, exponent = some (negative, ds) → IsDigits ds) :
    readExponent (exponentText exponent) = some (exponent, []) := by
  match exponent with
  | none => rfl
  | some (negative, ds) =>
    have hdigits := digits_append (h negative ds rfl) endsDigits_nil
    rw [List.append_nil] at hdigits
    cases negative <;> simp [exponentText, readExponent, readExponentSign, hdigits]

/-- A numeral is read from its text. -/
theorem ofChars?_text {n : Numeral} (h : n.WellFormed) : ofChars? n.text = some n := by
  have hwhole : digits (n.whole ++ (fractionText n.fraction ++ exponentText n.exponent)) =
      some (n.whole, fractionText n.fraction ++ exponentText n.exponent) :=
    digits_append h.whole
      (endsDigits_fractionText_append n.fraction (endsDigits_exponentText n.exponent))
  simp only [ofChars?, text, readSign_append n.negative h.whole, hwhole,
    readFraction_append h.fraction, readExponent_exponentText h.exponent, Option.bind_eq_bind,
    Option.bind_some, true_and, if_pos h.leading, Option.pure_def]

/-! ### Characters of a numeral -/

/-- The characters that numerals are written with. -/
def isNumeric (c : Char) : Bool :=
  c.isDigit || c == '-' || c == '+' || c == '.' || c == 'e'

/-- Digits are characters of a numeral. -/
lemma isNumeric_of_isDigits {ds : List Char} (h : IsDigits ds) :
    ∀ c ∈ ds, isNumeric c = true := by
  intro c hc
  simp [isNumeric, h.2 c hc]

/-- A well-formed numeral has the characters of numerals only. -/
lemma isNumeric_of_mem_text {n : Numeral} (h : n.WellFormed) :
    ∀ c ∈ n.text, isNumeric c = true := by
  intro c hc
  simp only [text, List.mem_append] at hc
  rcases hc with hc | hc | hc | hc
  · split at hc
    · rw [List.mem_singleton.1 hc]
      decide
    · simp at hc
  · exact isNumeric_of_isDigits h.whole c hc
  · match hf : n.fraction, hc with
    | some ds, hc =>
      rcases List.mem_cons.1 hc with rfl | hc
      · decide
      · exact isNumeric_of_isDigits (h.fraction ds hf) c hc
  · match he : n.exponent, hc with
    | some (negative, ds), hc =>
      rcases List.mem_cons.1 hc with rfl | hc
      · decide
      rcases List.mem_cons.1 hc with rfl | hc
      · cases negative <;> decide
      · exact isNumeric_of_isDigits (h.exponent negative ds he) c hc

/-- A numeral starts with a sign or a digit. -/
lemma text_ne_nil {n : Numeral} (h : n.WellFormed) : n.text ≠ [] := by
  simp [text, h.whole.1]

/-- What a numeral writes, without its sign. -/
def decimal (n : Numeral) : Decimal :=
  ⟨n.coefficient, n.scale⟩

/-- A numeral with a fraction or an exponent is the double whose magnitude its decimal has. -/
lemma value?_eq_float {n : Numeral} {x : Float} (hx : x.isFinite = true)
    (hnegative : n.negative = Binary64.isNegative x)
    (hbits : n.decimal.bits = Binary64.magnitude x)
    (hmarked : ¬(n.fraction = none ∧ n.exponent = none)) :
    n.value? = some (.float x hx) := by
  have hfloat : Decimal.toFloat n.negative ⟨n.coefficient, n.scale⟩ = x := by
    rw [hnegative]
    exact Decimal.toFloat_eq hbits
  have hmarked' : ¬(n.fraction = none ∧ n.exponent = none ∧
      ¬(n.negative = true ∧ n.coefficient = 0)) := fun h => hmarked ⟨h.1, h.2.1⟩
  simp only [value?, if_neg hmarked', float?, hfloat, dif_pos hx]

end Numeral

end PlotAnnotation.Json

/-! ### Doubles -/

namespace PlotAnnotation.NumberFormat

open Json

/-- The numeral of digits written out in full, the first one with exponent `e`. -/
def plainNumeral (f : NumberFormat) (negative : Bool) (digits : List Char) (e : Int) : Numeral :=
  if e < 0 then
    ⟨negative, ['0'], some (List.replicate (-e - 1).toNat '0' ++ digits), none⟩
  else if digits.length ≤ e.toNat + 1 then
    ⟨negative, digits ++ List.replicate (e.toNat + 1 - digits.length) '0',
      if f.pointed then some ['0'] else none, none⟩
  else ⟨negative, digits.take (e.toNat + 1), some (digits.drop (e.toNat + 1)), none⟩

/-- The numeral of digits as a mantissa with an exponent. -/
def scientificNumeral (negative : Bool) (digits : List Char) (e : Int) : Numeral :=
  ⟨negative, digits.take 1, if digits.drop 1 = [] then none else some (digits.drop 1),
    some (e < 0, Nat.toDigits 10 e.natAbs)⟩

variable (f : NumberFormat) (negative : Bool) {digits : List Char} (e : Int)

/-- Either layout writes the text of its numeral. -/
lemma text_plainNumeral (digits : List Char) : (f.plainNumeral negative digits e).text =
    (if negative then ['-'] else []) ++ f.writePlain digits e := by
  unfold plainNumeral writePlain
  by_cases he : e < 0
  · simp [he, Numeral.text, Numeral.fractionText, Numeral.exponentText]
  by_cases hlength : digits.length ≤ e.toNat + 1
  · cases f.pointed <;>
      simp [he, hlength, Numeral.text, Numeral.fractionText, Numeral.exponentText]
  · simp only [if_neg he, if_neg hlength, Numeral.text, Numeral.fractionText,
      Numeral.exponentText, List.append_nil]

/-- The scientific numeral of digits is what is written scientifically. -/
lemma text_scientificNumeral (digits : List Char) : (scientificNumeral negative digits e).text =
    (if negative then ['-'] else []) ++ writeScientific digits e := by
  unfold scientificNumeral writeScientific
  match digits with
  | [] | [d] | d :: d' :: rest =>
    simp [Numeral.text, Numeral.fractionText, Numeral.exponentText]

/-- Some of the digits, at least one, are digits. -/
lemma isDigits_take (h : IsDigits digits) {k : Nat} (hk : 0 < k) : IsDigits (digits.take k) := by
  refine ⟨?_, fun c hc => h.2 c (List.mem_of_mem_take hc)⟩
  rw [Ne, List.take_eq_nil_iff, not_or]
  exact ⟨hk.ne', h.1⟩

/-- Digits that do not start with a zero make a numeral in either layout. -/
lemma wellFormed_plainNumeral (h : IsDigits digits) (hhead : digits.head? ≠ some '0') :
    (f.plainNumeral negative digits e).WellFormed := by
  unfold plainNumeral
  split
  · -- before the point there is the one zero
    refine ⟨isDigits_zero, fun _ => rfl, ?_, by simp⟩
    rintro ds ⟨⟩
    exact ⟨by simp [h.1], fun c hc => (List.mem_append.1 hc).elim (isDigit_of_mem_zeros c) (h.2 c)⟩
  split
  · refine ⟨h.append isDigit_of_mem_zeros, ?_, ?_, by simp⟩
    · rw [List.head?_append_of_ne_nil _ h.1]
      exact fun hzero => absurd hzero hhead
    · intro ds hds
      simp only [Option.ite_none_right_eq_some, Option.some.injEq] at hds
      obtain ⟨-, rfl⟩ := hds
      exact isDigits_zero
  · next hlength =>
    refine ⟨isDigits_take h (Nat.succ_pos _), ?_, ?_, by simp⟩
    · rw [List.head?_take, if_neg (Nat.succ_ne_zero _)]
      exact fun hzero => absurd hzero hhead
    · rintro ds ⟨⟩
      refine ⟨?_, fun c hc => h.2 c (List.mem_of_mem_drop hc)⟩
      rw [Ne, List.drop_eq_nil_iff]
      exact hlength

/-- A scientific numeral is well-formed, if its digits do not begin with a zero. -/
lemma wellFormed_scientificNumeral (h : IsDigits digits) (hhead : digits.head? ≠ some '0') :
    (scientificNumeral negative digits e).WellFormed := by
  refine ⟨isDigits_take h Nat.one_pos, ?_, ?_, ?_⟩
  · simp only [scientificNumeral]
    rw [List.head?_take, if_neg Nat.one_ne_zero]
    exact fun hzero => absurd hzero hhead
  · intro ds hds
    simp only [scientificNumeral, Option.ite_none_left_eq_some, Option.some.injEq] at hds
    obtain ⟨hne, rfl⟩ := hds
    exact ⟨hne, fun c hc => h.2 c (List.mem_of_mem_drop hc)⟩
  · intro negative' ds hds
    simp only [scientificNumeral, Option.some.injEq, Prod.mk.injEq] at hds
    obtain ⟨-, rfl⟩ := hds
    exact isDigits_toDigits _

/-- Either numeral has the value of the digits, the first one with exponent `e`. -/
lemma value_plainNumeral (digits : List Char) :
    (f.plainNumeral negative digits e).decimal.value =
      digitsValue digits * 10 ^ (e + 1 - digits.length) := by
  unfold plainNumeral
  split
  · next he =>
    have hscale : (0 : Int) - ((List.replicate (-e - 1).toNat '0' ++ digits).length : Nat) =
        e + 1 - digits.length := by
      rw [List.length_append, List.length_replicate]
      omega
    have hcoefficient : digitsValue (['0'] ++ (List.replicate (-e - 1).toNat '0' ++ digits)) =
        digitsValue digits := by
      rw [digitsValue_append, digitsValue_append, digitsValue_zero, digitsValue_zeros]
      simp
    simp only [Numeral.decimal, Decimal.value, Numeral.coefficient, Numeral.scale,
      Option.getD_some]
    rw [hscale, ← digitsValue, hcoefficient]
  split
  · next he hlength =>
    have hwhole : digitsValue (digits ++ List.replicate (e.toNat + 1 - digits.length) '0') =
        10 ^ (e.toNat + 1 - digits.length) * digitsValue digits := by
      rw [digitsValue_append, digitsValue_zeros, List.length_replicate, Nat.add_zero]
    have hexponent : e + 1 - digits.length = ((e.toNat + 1 - digits.length : Nat) : Int) := by
      omega
    rw [hexponent, zpow_natCast, mul_comm]
    cases f.pointed with
    | false =>
      simp only [Numeral.decimal, Decimal.value, Numeral.coefficient, Numeral.scale,
        Bool.false_eq_true, if_false, Option.getD_none, List.append_nil]
      rw [← digitsValue, hwhole]
      simp
    | true =>
      simp only [Numeral.decimal, Decimal.value, Numeral.coefficient, Numeral.scale, if_true,
        Option.getD_some]
      rw [← digitsValue, digitsValue_append, hwhole, digitsValue_zero]
      push_cast
      simp only [List.length_singleton]
      ring
  · next he hlength =>
    have hscale : (0 : Int) - ((digits.drop (e.toNat + 1)).length : Nat) =
        e + 1 - digits.length := by
      rw [List.length_drop]
      omega
    simp only [Numeral.decimal, Decimal.value, Numeral.coefficient, Numeral.scale,
      Option.getD_some, List.take_append_drop]
    rw [hscale, ← digitsValue]

/-- All digits of a scientific numeral are the digits it was made from. -/
lemma coefficient_scientificNumeral (digits : List Char) :
    (scientificNumeral negative digits e).coefficient = digitsValue digits := by
  have hrest : (if digits.drop 1 = [] then none else some (digits.drop 1)).getD [] =
      digits.drop 1 := by
    split <;> simp_all
  unfold Numeral.coefficient scientificNumeral
  rw [hrest, List.take_append_drop, digitsValue]

/-- The point of a scientific numeral stands after its first digit. -/
lemma scale_scientificNumeral (h : digits ≠ []) :
    (scientificNumeral negative digits e).scale = e + 1 - digits.length := by
  have hlength := List.length_pos_iff.2 h
  have hrest : (if digits.drop 1 = [] then none else some (digits.drop 1)).getD [] =
      digits.drop 1 := by
    split <;> simp_all
  unfold Numeral.scale scientificNumeral
  rw [hrest, List.length_drop]
  simp only [Nat.ofDigitChars_ten_toDigits, decide_eq_true_eq]
  split <;> omega

/-- A scientific numeral has the value of its digits at its exponent. -/
lemma value_scientificNumeral (h : digits ≠ []) :
    (scientificNumeral negative digits e).decimal.value =
      digitsValue digits * 10 ^ (e + 1 - digits.length) := by
  rw [Numeral.decimal, Decimal.value, coefficient_scientificNumeral,
    scale_scientificNumeral negative e h]

/-- The numeral of zero. -/
def zeroNumeral : Numeral :=
  ⟨negative, ['0'], if f.pointed then some ['0'] else none, none⟩

lemma text_zeroNumeral : (f.zeroNumeral negative).text =
    (if negative then ['-'] else []) ++ f.writePlain ['0'] 0 := by
  unfold zeroNumeral writePlain
  cases f.pointed <;> simp [Numeral.text, Numeral.fractionText, Numeral.exponentText]

lemma coefficient_zeroNumeral : (f.zeroNumeral negative).coefficient = 0 := by
  unfold Numeral.coefficient zeroNumeral
  cases f.pointed <;> rfl

lemma wellFormed_zeroNumeral : (f.zeroNumeral negative).WellFormed := by
  refine ⟨isDigits_zero, fun _ => rfl, ?_, by simp [zeroNumeral]⟩
  intro ds hds
  simp only [zeroNumeral, Option.ite_none_right_eq_some, Option.some.injEq] at hds
  obtain ⟨-, rfl⟩ := hds
  exact isDigits_zero

/-- The numeral of a finite double. -/
def numeral (x : Float) : Numeral :=
  let bits := Binary64.magnitude x
  if bits = 0 then f.zeroNumeral (Binary64.isNegative x)
  else if f.isPlain (f.firstExponent bits) then
    f.plainNumeral (Binary64.isNegative x) (f.shortestDigits bits) (f.firstExponent bits)
  else
    scientificNumeral (Binary64.isNegative x) (f.shortestDigits bits) (f.firstExponent bits)

variable (x : Float)

/-- A double is written as its numeral is spelled. -/
lemma text_numeral : (f.numeral x).text = f.write x := by
  have hsign : ∀ cs, (if Binary64.isNegative x then '-' :: cs else cs) =
      (if Binary64.isNegative x then ['-'] else []) ++ cs := by
    intro cs
    split <;> rfl
  unfold numeral write
  simp only [writeMagnitude_eq]
  rw [hsign]
  split
  · exact text_zeroNumeral f _
  split
  · exact text_plainNumeral f _ _ _
  · exact text_scientificNumeral _ _ _

lemma negative_numeral : (f.numeral x).negative = Binary64.isNegative x := by
  unfold numeral plainNumeral
  simp only
  split
  · rfl
  split
  · split
    · rfl
    split <;> rfl
  · rfl

variable {x}

/-- The numeral of a finite float is well-formed. -/
lemma wellFormed_numeral (hx : x.isFinite = true) : (f.numeral x).WellFormed := by
  have hfinite := (Binary64.isFinite_iff x).1 hx
  unfold numeral
  simp only
  split
  · exact wellFormed_zeroNumeral f _
  next hzero =>
  have hpos := Nat.pos_of_ne_zero hzero
  split
  · exact wellFormed_plainNumeral f _ _ (isDigits_shortestDigits f hpos hfinite)
      (head?_shortestDigits_ne f hpos hfinite)
  · exact wellFormed_scientificNumeral _ _ (isDigits_shortestDigits f hpos hfinite)
      (head?_shortestDigits_ne f hpos hfinite)

/-- The numeral of a double that is not zero has the value of its shortest decimal. -/
lemma value_numeral (hx : x.isFinite = true) (hpos : 0 < Binary64.magnitude x) :
    (f.numeral x).decimal.value = (Decimal.shortest f.tie (Binary64.magnitude x)).value := by
  have hfinite := (Binary64.isFinite_iff x).1 hx
  rw [← value_shortestDigits, numeral, if_neg hpos.ne']
  split
  · exact value_plainNumeral f _ _ _
  · exact value_scientificNumeral _ _ (isDigits_shortestDigits f hpos hfinite).1

/-- The numeral of a double reads as its magnitude. -/
lemma bits_numeral (hx : x.isFinite = true) :
    (f.numeral x).decimal.bits = Binary64.magnitude x := by
  rcases Nat.eq_zero_or_pos (Binary64.magnitude x) with hzero | hpos
  · have hcoefficient : (f.numeral x).decimal.coefficient = 0 := by
      rw [numeral, if_pos hzero]
      exact coefficient_zeroNumeral f _
    rw [hzero, Decimal.bits, if_pos hcoefficient]
  · rw [Decimal.bits_eq_round, value_numeral f hx hpos, ← Decimal.bits_eq_round,
      Decimal.bits_shortest f.tie ((Binary64.isFinite_iff x).1 hx)]

/-- Where whole numbers keep a fraction, no double is written as an integer. -/
lemma numeral_marked (hpointed : f.pointed = true) (x : Float) :
    ¬((f.numeral x).fraction = none ∧ (f.numeral x).exponent = none) := by
  unfold numeral plainNumeral zeroNumeral scientificNumeral
  simp only [hpointed, if_true]
  split
  · simp
  split
  · split
    · simp
    split <;> simp
  · simp

end PlotAnnotation.NumberFormat

/-! ### Numbers -/

namespace PlotAnnotation.Json.Number

open Numeral

/-- The numeral of an integer. -/
def integerNumeral (n : Int) : Numeral :=
  ⟨n < 0, Nat.toDigits 10 n.natAbs, none, none⟩

/-- The numeral of an integer is what is written for the integer. -/
lemma text_integerNumeral (n : Int) : (integerNumeral n).text = (integerText n).toList := by
  unfold integerText integerNumeral
  split <;> simp_all [text, fractionText, exponentText]

/-- The numeral of an integer is well-formed. -/
lemma wellFormed_integerNumeral (n : Int) : (integerNumeral n).WellFormed := by
  refine ⟨isDigits_toDigits _, fun hhead => ?_, by simp [integerNumeral],
    by simp [integerNumeral]⟩
  rcases Nat.eq_zero_or_pos n.natAbs with hzero | hpos
  · simp [integerNumeral, hzero]
  · exact absurd hhead (head?_toDigits_ne hpos)

/-- The numeral of an integer stands for the integer, if 64 bits have room for it. -/
lemma value?_integerNumeral {n : Int} (lower : -2 ^ 63 ≤ n) (upper : n < 2 ^ 64) :
    (integerNumeral n).value? = some (.int n lower upper) := by
  have hcoefficient : (integerNumeral n).coefficient = n.natAbs := by
    simp [integerNumeral, coefficient]
  have hinteger : (if (integerNumeral n).negative then -((integerNumeral n).coefficient : Int)
      else (integerNumeral n).coefficient) = n := by
    rw [hcoefficient]
    simp only [integerNumeral, decide_eq_true_eq]
    split <;> omega
  have hplain : (integerNumeral n).fraction = none ∧ (integerNumeral n).exponent = none ∧
      ¬((integerNumeral n).negative = true ∧ (integerNumeral n).coefficient = 0) := by
    refine ⟨rfl, rfl, ?_⟩
    rw [hcoefficient]
    simp only [integerNumeral, decide_eq_true_eq]
    omega
  simp only [value?, if_pos hplain, hinteger]
  exact dif_pos ⟨lower, upper⟩

/-- A number is written as the text of a numeral that stands for it. -/
theorem exists_numeral_write (n : Number) :
    ∃ m : Numeral, m.WellFormed ∧ m.text = n.write ∧ m.value? = some n := by
  cases n with
  | int n lower upper =>
    exact ⟨integerNumeral n, wellFormed_integerNumeral n, text_integerNumeral n,
      value?_integerNumeral lower upper⟩
  | float x hx =>
    refine ⟨NumberFormat.json.numeral x, NumberFormat.wellFormed_numeral _ hx,
      NumberFormat.text_numeral _ x, ?_⟩
    exact value?_eq_float hx (NumberFormat.negative_numeral _ x)
      (NumberFormat.bits_numeral _ hx) (NumberFormat.numeral_marked _ rfl x)

end PlotAnnotation.Json.Number
