import PlotAnnotation.Proofs.Decimal.Nearest
import PlotAnnotation.Proofs.Json.Spelling
import PlotAnnotation.Proofs.Options.Finite
import PlotAnnotation.Proofs.Options.RoundTrip

/-!
# Data points read from their texts

A point is written as an array of two numbers, its instant first.  An instant that is a timestamp is
taken as it stands; any other number goes through a double.  For a large integer this makes no
difference, since the end of the range of timestamps is a double itself: an integer beyond it stays
beyond when it is rounded (`clampTimestamp_truncate`).  So every integer is read as the timestamp
nearest to it, whatever its size, and no rounding is seen (`isTimestamp_readTimestamp`).

What is read from a text is told from its numerals, which may be spelled in any way and have any
blanks around them (`ofString?_pairText`).
-/

namespace PlotAnnotation

open Binary64 Json

/-! ### Timestamps -/

/-- A timestamp is kept within the range. -/
lemma toInt_clampTimestamp (n : ℤ) :
    (clampTimestamp n).toInt = max (-2 ^ 63) (min (2 ^ 63 - 1) n) :=
  Int64.toInt_ofInt_of_le (by omega) (by omega)

/-- An integer that is not within the range of timestamps may be rounded to a double first. -/
lemma clampTimestamp_truncate {x : Float} {n : ℤ} (h : IsNearest x n)
    (hn : n = 0 ∨ n < -2 ^ 63 ∨ 2 ^ 63 ≤ n) : clampTimestamp (truncate x) = clampTimestamp n := by
  have hclamp : max (-2 ^ 63) (min (2 ^ 63 - 1) (truncate x)) =
      max (-2 ^ 63) (min (2 ^ 63 - 1) n) := by
    rcases hn with rfl | hlow | hhigh
    · obtain ⟨y, hy, hvalue⟩ := exists_rational_eq_zero
      rw [le_antisymm (h.truncate_le hy hvalue le_rfl) (h.le_truncate hy hvalue le_rfl)]
    · obtain ⟨y, hy, hvalue⟩ := exists_rational_eq_pow true
      have htruncate := h.truncate_le hy hvalue hlow.le
      rw [if_pos rfl] at htruncate
      omega
    · obtain ⟨y, hy, hvalue⟩ := exists_rational_eq_pow false
      have htruncate := h.le_truncate hy hvalue hhigh
      rw [if_neg Bool.false_ne_true] at htruncate
      omega
  rw [clampTimestamp, clampTimestamp, hclamp]

namespace DataPoint

/-- An integer is read as the timestamp nearest to it. -/
lemma readTimestamp_int (n : ℤ) (lower : -2 ^ 63 ≤ n) (upper : n < 2 ^ 64) :
    readTimestamp (.int n lower upper) = .ok (clampTimestamp n) := by
  rw [readTimestamp]
  split
  · next hrange =>
    have hclamp : max (-2 ^ 63) (min (2 ^ 63 - 1) n) = n := by omega
    rw [clampTimestamp, hclamp]
  · next hrange =>
    have hfinite : (ofInt n).isFinite = true := (Number.int n lower upper).isFinite_toFloat
    change timestampOfFloat (ofInt n) = _
    rw [timestampOfFloat, if_pos hfinite,
      clampTimestamp_truncate (isNearest_ofInt hfinite) (by omega)]

/-- A float is cut to an integer and clamped. -/
lemma readTimestamp_float {x : Float} (finite : x.isFinite = true) :
    readTimestamp (.float x finite) = .ok (clampTimestamp (truncate x)) :=
  if_pos finite

/-- Every number that is read stands for a timestamp. -/
lemma exists_readTimestamp (a : Number) : ∃ t, readTimestamp a = .ok t := by
  cases a with
  | int n lower upper => exact ⟨_, readTimestamp_int n lower upper⟩
  | float x finite => exact ⟨_, readTimestamp_float finite⟩

/-- The timestamp that a numeral is: the one nearest to an integer, and for any other numeral the
one nearest to the integer part of the nearest double. -/
structure IsTimestamp (n : Numeral) (t : Int64) : Prop where
  integer : n.IsInteger → t.toInt = max (-2 ^ 63) (min (2 ^ 63 - 1) n.integer)
  other : ¬n.IsInteger → ∃ x, IsNearest x n.rational ∧
    t.toInt = max (-2 ^ 63) (min (2 ^ 63 - 1) (towardZero (Binary64.rational x)))

/-- The double that a numeral stands for is the nearest one, and has the sign that is written. -/
lemma isNearest_of_value? {n : Numeral} {a : Number} (h : n.value? = some a) :
    IsNearest a.toFloat n.rational ∧ isNegative a.toFloat = n.negative := by
  have hfinite := a.isFinite_toFloat
  rw [Numeral.toFloat_of_value? h] at hfinite ⊢
  exact ⟨isNearest_toFloat hfinite, isNegative_ofMagnitude _⟩

/-- A numeral is read as the timestamp that it is. -/
theorem isTimestamp_readTimestamp {n : Numeral} {a : Number} (h : n.value? = some a) {t : Int64}
    (ht : readTimestamp a = .ok t) : IsTimestamp n t := by
  rcases Numeral.value?_cases h with ⟨hn, -, lower, upper, rfl⟩ | ⟨hrange, finite, rfl⟩
  · rw [readTimestamp_int, Except.ok.injEq] at ht
    refine ⟨fun _ => ?_, fun hother => absurd hn hother⟩
    rw [← ht, toInt_clampTimestamp]
  · obtain ⟨hnearest, -⟩ := isNearest_of_value? h
    rw [Number.toFloat] at hnearest
    rw [readTimestamp_float, Except.ok.injEq] at ht
    refine ⟨fun hn => ?_, fun _ => ⟨_, hnearest, ?_⟩⟩
    · rw [Numeral.rational_of_isInteger hn] at hnearest
      have hbeyond := hrange hn
      rw [← ht, clampTimestamp_truncate hnearest (by omega), toInt_clampTimestamp]
    · rw [← ht, toInt_clampTimestamp, truncate_eq]

/-! ### Points -/

/-- A pair of numbers is read as an instant and a value. -/
lemma ofTree?_pair {a : Number} {t : Int64} (h : readTimestamp a = .ok t) (b : Number) :
    Wire.ofTree? (.array [.number a, .number b]) = some (⟨t, b.toFloat⟩ : DataPoint) := by
  change (readTimestamp a).toOption.map (fun t => (⟨t, b.toFloat⟩ : DataPoint)) = _
  rw [h]
  rfl

/-- Points are read from the arrays of two numbers, and from nothing else. -/
lemma exists_ofTree?_iff (t : Tree) : (∃ p : DataPoint, Wire.ofTree? t = some p) ↔
    ∃ a b, t = .array [.number a, .number b] := by
  constructor
  · rintro ⟨p, hp⟩
    change ofTree? t = some p at hp
    unfold ofTree? at hp
    split at hp
    · exact ⟨_, _, rfl⟩
    · contradiction
  · rintro ⟨a, b, rfl⟩
    obtain ⟨t, ht⟩ := exists_readTimestamp a
    exact ⟨_, ofTree?_pair ht b⟩

/-- A point with a finite value comes back from its wire form and from its text. -/
lemma ofString?_toText_of_isFinite {p : DataPoint} (h : p.value.isFinite = true) :
    Json.ofValue? (Wire.toValue p) = some p ∧ Json.ofString? DataPoint (toText p) = some p := by
  have hform : Json.ofValue? (Wire.toValue p) = some p := by
    rw [Json.ofValue?, ofTree?_ofValue, if_pos h]
  have hdepth : (Wire.toValue p).depth ≤ depthLimit := by
    rw [depth_toValue]
    decide
  exact ⟨hform, (ofString?_toText hdepth).trans hform⟩

/-! ### Texts -/

/-- Two words in brackets, with something between all the parts. -/
def pairText (gap : Fin 6 → List Char) (first second : List Char) : String :=
  String.ofList <| gap 0 ++ '[' :: (gap 1 ++ (first ++ (gap 2 ++ ',' ::
    (gap 3 ++ (second ++ (gap 4 ++ ']' :: gap 5))))))

open Token Cutter in
/-- The text of an array of two numerals, in any spelling and with any blanks. -/
lemma treeOfString?_pairText {gap : Fin 6 → List Char} {first second : List Char}
    {n m : Numeral} {a b : Number} (hgap : ∀ i, ∀ c ∈ gap i, isGap c = true)
    (hfirst : Numeral.ofChars? first = some n) (hsecond : Numeral.ofChars? second = some m)
    (ha : n.value? = some a) (hb : m.value? = some b) :
    Tree.ofString? (pairText gap first second) = some (.array [.number a, .number b]) := by
  have hopen : ofMark? '[' = some .openArray := rfl
  have hcomma : ofMark? ',' = some .comma := rfl
  have hclose : ofMark? ']' = some .closeArray := rfl
  have htokens : Token.ofChars? (pairText gap first second).toList =
      some [.openArray, .number (some a), .comma, .number (some b), .closeArray] := by
    rw [pairText, ← List.append_nil (gap 5), String.toList_ofList, Token.ofChars?, ← Cutter.run,
      run_gap _ (hgap 0),
      run_mark _ hopen, run_gap _ (hgap 1),
      run_numeral _ hfirst (.gap_append (hgap 2) (.mark hcomma _)), run_gap _ (hgap 2),
      run_mark _ hcomma, run_gap _ (hgap 3),
      run_numeral _ hsecond (.gap_append (hgap 4) (.mark hclose _)), run_gap _ (hgap 4),
      run_mark _ hclose, run_gap _ (hgap 5), ha, hb]
    rfl
  rw [Tree.ofString?, htokens]
  rfl

/-- **Points are read from all pairs of numbers, exactly.**  However two numbers are spelled, the
array of them is read as a point.  Its timestamp is the one that the first numeral is, its value the
double nearest to the second, with its sign.  Nothing but arrays of two numbers is read as a point,
no number is refused for not being finite, and a point with a finite value is read back from what it
is written as. -/
theorem ofString?_pairText :
    (∀ (gap : Fin 6 → List Char) (first second : List Char) (n m : Numeral),
      (∀ i, ∀ c ∈ gap i, Token.isGap c = true) →
      Numeral.ofChars? first = some n → Numeral.ofChars? second = some m →
      n.value?.isSome = true → m.value?.isSome = true →
      ∃ p, Json.ofString? DataPoint (pairText gap first second) = some p ∧
        IsTimestamp n p.timestamp ∧
        IsNearest p.value m.rational ∧ isNegative p.value = m.negative) ∧
    (∀ t : Tree, (∃ p : DataPoint, Wire.ofTree? t = some p) ↔
      ∃ a b, t = .array [.number a, .number b]) ∧
    (∀ a : Number, ∃ t, readTimestamp a = .ok t) ∧
    ∀ p : DataPoint, p.value.isFinite = true →
      Json.ofValue? (Wire.toValue p) = some p ∧ Json.ofString? DataPoint (toText p) = some p := by
  refine ⟨fun gap first second n m hgap hfirst hsecond ha hb => ?_, exists_ofTree?_iff,
    exists_readTimestamp, fun p => ofString?_toText_of_isFinite⟩
  obtain ⟨a, ha⟩ := Option.isSome_iff_exists.1 ha
  obtain ⟨b, hb⟩ := Option.isSome_iff_exists.1 hb
  obtain ⟨t, ht⟩ := exists_readTimestamp a
  have hread : Json.ofString? DataPoint (pairText gap first second) = some ⟨t, b.toFloat⟩ := by
    rw [Json.ofString?, treeOfString?_pairText hgap hfirst hsecond ha hb]
    exact ofTree?_pair ht b
  exact ⟨_, hread, isTimestamp_readTimestamp ha ht, isNearest_of_value? hb⟩

/-- An odd integer that is no double, and a number that could be spelled in fewer characters. -/
theorem ofString?_pairText_odd :
    ∃ p, Json.ofString? DataPoint "[9007199254740993, -1.50E0]" = some p ∧
      p.timestamp.toInt = 9007199254740993 ∧ IsNearest p.value (-3 / 2) := by
  let n : Numeral := ⟨false, "9007199254740993".toList, none, none⟩
  let m : Numeral := ⟨true, ['1'], some ['5', '0'], some (false, ['0'])⟩
  let gap (i : Fin 6) : List Char := if i = 3 then [' '] else []
  have hgap : ∀ i, ∀ c ∈ gap i, Token.isGap c = true := by
    intro i c hc
    obtain ⟨-, rfl⟩ : i = 3 ∧ c = ' ' := by simpa [gap] using hc
    rfl
  have hfirst : Numeral.ofChars? "9007199254740993".toList = some n := by decide +kernel
  have hsecond : Numeral.ofChars? "-1.50E0".toList = some m := by decide +kernel
  have hn : n.value?.isSome = true := by decide +kernel
  have hm : m.value?.isSome = true := by decide +kernel
  have htext : pairText gap "9007199254740993".toList "-1.50E0".toList =
      "[9007199254740993, -1.50E0]" := by decide +kernel
  have hinteger : n.integer = 9007199254740993 := by decide +kernel
  have hrational : m.rational = -3 / 2 := by decide +kernel
  obtain ⟨p, hp, htimestamp, hnearest, -⟩ :=
    ofString?_pairText.1 gap _ _ n m hgap hfirst hsecond hn hm
  refine ⟨p, ?_, ?_, ?_⟩
  · rwa [htext] at hp
  · rw [htimestamp.integer ⟨rfl, rfl⟩, hinteger]
    omega
  · rwa [hrational] at hnearest

end DataPoint

end PlotAnnotation
