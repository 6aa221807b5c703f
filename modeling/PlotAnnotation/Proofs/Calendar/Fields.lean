import PlotAnnotation.Calendar.Format
import PlotAnnotation.Proofs.Decimal.Digits

/-!
# Reading digits as days and times

A field of a date is a number of digits, its width.  Both manners of reading take a field of full
width in the same way, whatever follows it.  From this a day and a time that are written in digits
are read in one step (`freeDay_text`, `fixedDay_text`, `freeClock_text`, `fixedClock_text`).  The
digits are arbitrary; only the readers of a day ask whether there is such a day.

A number below a power of ten is the value of the field that it is padded to (`digitsValue_padded`).
-/

namespace PlotAnnotation

open Text
open scoped Arithmetic

/-! ### Blanks -/

namespace Text

/-- There is nothing to trim before a character that is not blank. -/
lemma trimStart_cons_eq_self {c : Char} (h : isBlank c = false) (cs : List Char) :
    trimStart (c :: cs) = c :: cs := by
  rw [trimStart_cons, h, if_neg Bool.false_ne_true]

/-- A text that does not start with a blank loses nothing. -/
lemma trimStart_eq_self {cs : List Char} (h : ∀ c, cs.head? = some c → isBlank c = false) :
    trimStart cs = cs := by
  cases cs with
  | nil => rfl
  | cons c cs => exact trimStart_cons_eq_self (h c rfl) cs

/-- Blanks around a text that neither starts nor ends with one are cut off. -/
lemma trim_append {before cs after : List Char} (hbefore : ∀ c ∈ before, isBlank c = true)
    (hafter : ∀ c ∈ after, isBlank c = true) (hhead : ∀ c, cs.head? = some c → isBlank c = false)
    (hlast : ∀ c, cs.getLast? = some c → isBlank c = false) :
    trim (before ++ cs ++ after) = cs := by
  have hreverse : ∀ c ∈ after.reverse, isBlank c = true :=
    fun c hc => hafter c (List.mem_reverse.1 hc)
  cases cs with
  | nil =>
    have hall : ∀ c ∈ before ++ after, isBlank c = true := fun c hc =>
      (List.mem_append.1 hc).elim (hbefore c) (hafter c)
    have hfront : trimStart (before ++ after) = [] := List.dropWhile_eq_nil_iff.2 hall
    rw [List.append_nil, trim, hfront]
    rfl
  | cons c cs =>
    have hfront : trimStart (before ++ c :: cs ++ after) = c :: cs ++ after := by
      rw [List.append_assoc, trimStart, List.dropWhile_append_of_pos hbefore]
      exact trimStart_eq_self hhead
    have hback : trimStart (c :: cs ++ after).reverse = (c :: cs).reverse := by
      rw [List.reverse_append, trimStart, List.dropWhile_append_of_pos hreverse]
      refine trimStart_eq_self fun d hd => hlast d ?_
      rwa [List.head?_reverse] at hd
    rw [trim, hfront, hback, List.reverse_reverse]

end Text

/-! ### Fields -/

/-- Digits, as many as the width says. -/
def IsField (width : Nat) (cs : List Char) : Prop :=
  cs.length = width ∧ ∀ c ∈ cs, c.isDigit = true

instance (width : Nat) (cs : List Char) : Decidable (IsField width cs) :=
  decidable_of_iff (cs.length = width ∧ cs.all Char.isDigit = true)
    (and_congr_right fun _ => List.all_eq_true)

namespace IsField

variable {width : Nat} {cs : List Char}

lemma isDigits (h : IsField (width + 1) cs) : IsDigits cs := by
  refine ⟨?_, h.2⟩
  rintro rfl
  simpa using h.1

/-- The width bounds the value. -/
lemma digitsValue_lt (h : IsField width cs) : digitsValue cs < 10 ^ width := by
  obtain ⟨rfl, hdigits⟩ := h
  induction cs with
  | nil => simp [digitsValue]
  | cons c cs ih =>
    have hrest := ih fun d hd => hdigits d (List.mem_cons_of_mem c hd)
    have hc : digitsValue [c] ≤ 9 := by
      have hdigit := hdigits c List.mem_cons_self
      simp only [Char.isDigit, ge_iff_le, Bool.and_eq_true, decide_eq_true_eq,
        UInt32.le_iff_toNat_le] at hdigit
      have hle : c.toNat ≤ 57 := hdigit.2
      simp only [digitsValue, Nat.ofDigitChars_cons, Nat.ofDigitChars_nil]
      simp
      omega
    have hmul : 10 ^ cs.length * digitsValue [c] ≤ 10 ^ cs.length * 9 := Nat.mul_le_mul_left _ hc
    rw [← List.singleton_append, digitsValue_append, List.length_append, List.length_singleton,
      Nat.pow_add]
    omega

/-- A field starts with a digit. -/
lemma exists_cons (h : IsField (width + 1) cs) (rest : List Char) :
    ∃ c ds, cs ++ rest = c :: ds ∧ c.isDigit = true := by
  obtain ⟨c, ds, rfl⟩ := List.exists_cons_of_ne_nil h.isDigits.1
  exact ⟨c, ds ++ rest, rfl, h.2 c List.mem_cons_self⟩

/-- There are no blanks in front of a field. -/
lemma trimStart_append (h : IsField (width + 1) cs) (rest : List Char) :
    trimStart (cs ++ rest) = cs ++ rest := by
  obtain ⟨c, ds, hcs, hdigit⟩ := h.exists_cons rest
  rw [hcs]
  exact trimStart_cons_eq_self (isBlank_of_isDigit hdigit) ds

/-- A text that ends with a field does not end with a blank. -/
lemma isBlank_getLast? (h : IsField (width + 1) cs) (front : List Char) (c : Char)
    (hc : (front ++ cs).getLast? = some c) : isBlank c = false := by
  rw [List.getLast?_append_of_ne_nil _ h.isDigits.1] at hc
  exact isBlank_of_isDigit (h.2 c (List.mem_of_getLast? hc))

end IsField

namespace DateTime

/-- Zeros in front do not change a number. -/
@[simp] lemma digitsValue_padded (width n : Nat) : digitsValue (padded width n) = n := by
  simp only [padded, digitsValue_append, digitsValue_zeros, digitsValue_toDigits, Nat.mul_zero,
    Nat.zero_add]

lemma isDigits_padded (width n : Nat) : IsDigits (padded width n) := by
  have hdigits := isDigits_toDigits n
  refine ⟨List.append_ne_nil_of_right_ne_nil _ hdigits.1, fun c hc => ?_⟩
  rcases List.mem_append.1 hc with hc | hc
  · exact isDigit_of_mem_zeros c hc
  · exact hdigits.2 c hc

/-- A number is as long as the field, or as its digits where these are more. -/
lemma length_padded (width n : Nat) :
    (padded width n).length = max width (Nat.toDigits 10 n).length := by
  rw [padded, List.length_append, List.length_replicate, Nat.sub_add_eq_max]

/-- A number that is not too large is padded to a field. -/
lemma isField_padded {width n : Nat} (hwidth : 0 < width) (h : n < 10 ^ width) :
    IsField width (padded width n) := by
  have hlength := (Nat.length_toDigits_le_iff (by decide) hwidth).2 h
  exact ⟨(length_padded width n).trans (Nat.max_eq_left hlength), (isDigits_padded width n).2⟩

end DateTime

/-! ### Readers of fields -/

namespace Calendar

variable {width : Nat} {cs : List Char}

/-- A field of the width is read, whatever follows it. -/
lemma fixedNumber_append (h : IsField width cs) (rest : List Char) :
    fixedNumber width (cs ++ rest) = some (digitsValue cs, rest) := by
  have htake : (cs ++ rest).take width = cs := List.take_left' h.1
  have hdrop : (cs ++ rest).drop width = rest := List.drop_left' h.1
  have hfield : cs.length = width ∧ cs.all Char.isDigit = true := ⟨h.1, List.all_eq_true.2 h.2⟩
  rw [fixedNumber, htake, hdrop, if_pos hfield, digitsValue]

/-- Digits are read up to the first character that is none. -/
lemma wholeNumber_append (h : IsDigits cs) {rest : List Char}
    (hrest : ∀ c, rest.head? = some c → c.isDigit = false) :
    wholeNumber (cs ++ rest) = some (digitsValue cs, rest) := by
  rw [wholeNumber, takeWhile_isDigit_append h.2 hrest, dropWhile_isDigit_append h.2 hrest]
  exact if_neg h.1

/-- Digits alone are read to their end. -/
lemma wholeNumber_digits (h : IsDigits cs) : wholeNumber cs = some (digitsValue cs, []) := by
  have hread : wholeNumber (cs ++ []) = _ := wholeNumber_append h nofun
  rwa [List.append_nil] at hread

/-- A field of the greatest width is read, whatever follows it. -/
lemma shortNumber_append (h : IsField (width + 1) cs) (rest : List Char) :
    shortNumber (width + 1) (cs ++ rest) = some (digitsValue cs, rest) := by
  have htake : (cs ++ rest).take (width + 1) = cs := List.take_left' h.1
  have hdrop : (cs ++ rest).drop (width + 1) = rest := List.drop_left' h.1
  rw [shortNumber, htake, hdrop, wholeNumber_digits h.isDigits]
  rfl

/-- Two digits are read, whatever follows them. -/
lemma freeNumber_append (h : IsField 2 cs) (rest : List Char) :
    freeNumber (cs ++ rest) = some (digitsValue cs, rest) := by
  rw [freeNumber, h.trimStart_append, shortNumber_append h]

/-- Four digits are read as a year, whatever follows them. -/
lemma freeYear_append (h : IsField 4 cs) (rest : List Char) :
    freeYear (cs ++ rest) = some ((digitsValue cs : Int), rest) := by
  have hread := shortNumber_append h rest
  obtain ⟨c, ds, hcs, hdigit⟩ := h.exists_cons rest
  rw [freeYear, h.trimStart_append]
  rw [hcs] at hread ⊢
  split
  · next heq =>
    obtain ⟨rfl, -⟩ := List.cons.inj heq
    contradiction
  · next heq =>
    obtain ⟨rfl, -⟩ := List.cons.inj heq
    contradiction
  · rw [hread]
    rfl

/-- No number starts with what is not a digit. -/
lemma freeNumber_cons_eq_none {c : Char} (hblank : isBlank c = false) (hdigit : c.isDigit = false)
    (cs : List Char) : freeNumber (c :: cs) = none := by
  have hwhole : wholeNumber ((c :: cs).take 2) = none := by
    rw [wholeNumber, List.take_succ_cons, List.takeWhile_cons, hdigit]
    rfl
  rw [freeNumber, trimStart_cons_eq_self hblank, shortNumber, hwhole, Option.map_none]

@[simp] lemma mark_cons (c : Char) (cs : List Char) : mark c (c :: cs) = some cs := by
  rw [mark, if_pos rfl]

/-- A mark is read where it stands, also where blanks are allowed before it. -/
lemma freeMark_cons (gaps : Bool) {c : Char} (hblank : isBlank c = false) (cs : List Char) :
    freeMark gaps c (c :: cs) = some cs := by
  rw [freeMark, trimStart_cons_eq_self hblank, ite_self, mark_cons]

/-! ### Days -/

/-- The digits of a day, four for the year and two each for the month and the day. -/
structure DayDigits where
  year : List Char
  month : List Char
  day : List Char
  isField_year : IsField 4 year
  isField_month : IsField 2 month
  isField_day : IsField 2 day

namespace DayDigits

/-- The digits with a hyphen between the fields. -/
def text (d : DayDigits) : List Char :=
  d.year ++ '-' :: d.month ++ '-' :: d.day

/-- The day that the digits name, if there is one. -/
def day? (d : DayDigits) : Option Int :=
  dayOf? (digitsValue d.year) (digitsValue d.month) (digitsValue d.day)

lemma text_append (d : DayDigits) (rest : List Char) :
    d.text ++ rest = d.year ++ '-' :: (d.month ++ '-' :: (d.day ++ rest)) := by
  simp only [text, List.append_assoc, List.cons_append]

end DayDigits

/-- A year that is read in the free manner, with a month and a day after it, is the day that the
three of them name. -/
lemma freeDay_of_freeYear (gaps : Bool) {year : Int} {month day rest : List Char}
    (hmonth : IsField 2 month) (hday : IsField 2 day)
    (hyear : freeYear cs = some (year, '-' :: (month ++ '-' :: (day ++ rest)))) :
    freeDay gaps cs = (dayOf? year (digitsValue month) (digitsValue day)).map (·, rest) := by
  have hhyphen : isBlank '-' = false := by decide
  simp only [freeDay, hyear, freeMark_cons gaps hhyphen, freeNumber_append hmonth,
    freeNumber_append hday, Option.bind_eq_bind, Option.bind_some, Option.map_eq_bind]
  rfl

/-- A day in digits is read in the free manner. -/
lemma freeDay_text (gaps : Bool) (d : DayDigits) (rest : List Char) :
    freeDay gaps (d.text ++ rest) = d.day?.map (·, rest) := by
  rw [d.text_append]
  exact freeDay_of_freeYear gaps d.isField_month d.isField_day
    (freeYear_append d.isField_year _)

/-- What is read after a day in digits is read for the day that they name. -/
lemma freeDay_bind {α : Type} (gaps : Bool) (d : DayDigits) (rest : List Char)
    (next : Int × List Char → Option α) :
    (freeDay gaps (d.text ++ rest) >>= next) = d.day?.bind fun n => next (n, rest) := by
  rw [freeDay_text, Option.bind_eq_bind, Option.bind_map]
  rfl

/-- A day in digits is read in the strict manner. -/
lemma fixedDay_text (d : DayDigits) (rest : List Char) :
    fixedDay (d.text ++ rest) = d.day?.map (·, rest) := by
  simp only [fixedDay, d.text_append, fixedNumber_append d.isField_year, mark_cons,
    fixedNumber_append d.isField_month, fixedNumber_append d.isField_day, Option.bind_eq_bind,
    Option.bind_some, Option.map_eq_bind, DayDigits.day?]
  rfl

/-! ### Times -/

/-- The digits of a time on the clock, two for each field. -/
structure ClockDigits where
  hour : List Char
  minute : List Char
  second : List Char
  isField_hour : IsField 2 hour
  isField_minute : IsField 2 minute
  isField_second : IsField 2 second

namespace ClockDigits

/-- The digits with a colon between the fields. -/
def text (c : ClockDigits) : List Char :=
  c.hour ++ ':' :: c.minute ++ ':' :: c.second

/-- What the digits say. -/
def numbers (c : ClockDigits) : Nat × Nat × Nat :=
  (digitsValue c.hour, digitsValue c.minute, digitsValue c.second)

lemma text_append (c : ClockDigits) (rest : List Char) :
    c.text ++ rest = c.hour ++ ':' :: (c.minute ++ ':' :: (c.second ++ rest)) := by
  simp only [text, List.append_assoc, List.cons_append]

end ClockDigits

/-- A time in digits is read in the free manner. -/
lemma freeClock_text (gaps : Bool) (c : ClockDigits) (rest : List Char) :
    freeClock gaps (c.text ++ rest) = some (c.numbers, rest) := by
  have hcolon : isBlank ':' = false := by decide
  simp only [freeClock, c.text_append, freeNumber_append c.isField_hour,
    freeNumber_append c.isField_minute, freeNumber_append c.isField_second,
    freeMark_cons gaps hcolon, Option.bind_eq_bind, Option.bind_some, ClockDigits.numbers]
  rfl

/-- A time in digits is read in the strict manner. -/
lemma fixedClock_text (c : ClockDigits) (rest : List Char) :
    fixedClock (c.text ++ rest) = some (c.numbers, rest) := by
  simp only [fixedClock, c.text_append, fixedNumber_append c.isField_hour,
    fixedNumber_append c.isField_minute, fixedNumber_append c.isField_second, mark_cons,
    Option.bind_eq_bind, Option.bind_some, ClockDigits.numbers]
  rfl

/-- Two fields with a colon between them are read as a distance from UTC. -/
lemma zoneDistance_append {hours minutes : List Char} (hhours : IsField 2 hours)
    (hminutes : IsField 2 minutes) (rest : List Char) :
    zoneDistance (hours ++ ':' :: (minutes ++ rest)) =
      if digitsValue hours ≤ 23 ∧ digitsValue minutes ≤ 59 then
        some (digitsValue hours * 60 + digitsValue minutes, rest)
      else none := by
  simp only [zoneDistance, fixedNumber_append hhours, fixedNumber_append hminutes, mark_cons,
    Option.bind_eq_bind, Option.bind_some]
  rfl

end Calendar

end PlotAnnotation
