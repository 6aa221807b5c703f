import PlotAnnotation.Proofs.Calendar.DayCount
import PlotAnnotation.Proofs.Calendar.Fields

/-!
# Keys of digits

A key whose fields are digits of full width, without a distance from UTC, has one of the forms of a
key.  That form reads it and none of the others does (`read_text`), so its date is the one that the
digits name.  They name one exactly if there is the day in the calendar and the time on the clock
(`isSome_date?_iff`), where second 60 is a time.
-/

namespace PlotAnnotation

open Calendar Text DateTime
open scoped Arithmetic

/-! ### Days of four-digit years -/

/-- The years 0 to 9999 lie within the calendar, with a day to spare on each side. -/
lemma CalendarDate.dayNumber_within {date : CalendarDate} (hexists : date.Exists)
    (hyear : 0 ≤ date.year ∧ date.year ≤ 9999) :
    firstDay + 1 ≤ date.dayNumber ∧ date.dayNumber + 1 ≤ lastDay := by
  have hbounds := dayNumber_bounds hexists
  unfold yearStart at hbounds
  unfold firstDay lastDay
  omega

/-- A day of the years 0 to 9999 is read from its numbers if it exists. -/
lemma Calendar.dayOf?_eq {year : Int} (month day : Nat) (hyear : 0 ≤ year ∧ year ≤ 9999) :
    dayOf? year month day =
      if month ≠ 0 ∧ (CalendarDate.mk year (month - 1) day).Exists then
        some (CalendarDate.mk year (month - 1) day).dayNumber
      else none := by
  by_cases hmonth : month = 0
  · rw [dayOf?, if_pos hmonth, if_neg fun h => h.1 hmonth]
  by_cases hexists : (CalendarDate.mk year (month - 1) day).Exists
  · have hwithin := CalendarDate.dayNumber_within hexists hyear
    have hday : firstDay ≤ (CalendarDate.mk year (month - 1) day).dayNumber ∧
        (CalendarDate.mk year (month - 1) day).dayNumber ≤ lastDay := by omega
    rw [dayOf?, if_neg hmonth, if_pos ⟨hmonth, hexists⟩, ofDate?, if_pos hexists, ofDay?,
      dif_pos hday]
    rfl
  · rw [dayOf?, if_neg hmonth, if_neg fun h => hexists h.2, ofDate?, if_neg hexists]
    rfl

/-! ### Keys in digits -/

namespace Calendar

/-- The day that the digits name; month 0 is taken for the first one. -/
def DayDigits.date (d : DayDigits) : CalendarDate :=
  ⟨digitsValue d.year, digitsValue d.month - 1, digitsValue d.day⟩

/-- The day that the digits name is in the calendar. -/
def DayDigits.Exists (d : DayDigits) : Prop :=
  digitsValue d.month ≠ 0 ∧ d.date.Exists

instance (d : DayDigits) : Decidable d.Exists :=
  inferInstanceAs (Decidable (_ ∧ _))

/-- The time that the digits name is on the clock, where any minute may end with second 60. -/
def ClockDigits.OnClock (c : ClockDigits) : Prop :=
  digitsValue c.hour < 24 ∧ digitsValue c.minute < 60 ∧ digitsValue c.second ≤ 60

instance (c : ClockDigits) : Decidable c.OnClock :=
  inferInstanceAs (Decidable (_ ∧ _))

end Calendar

/-- A key of digits, without a distance from UTC. -/
inductive DigitKey where
  | dayOnly (day : DayDigits)
  | spaced (day : DayDigits) (clock : ClockDigits)
  | joined (day : DayDigits) (clock : ClockDigits)

namespace DigitKey

/-- The form of the key. -/
def form : DigitKey → KeyFormat
  | dayOnly _ => .dayOnly
  | spaced _ _ => .spaced
  | joined _ _ => .joined

/-- The text of the key. -/
def text : DigitKey → List Char
  | dayOnly day => day.text
  | spaced day clock => day.text ++ ' ' :: clock.text
  | joined day clock => day.text ++ 'T' :: clock.text

/-- The digits name a day of the calendar and a time on the clock. -/
def Exists : DigitKey → Prop
  | dayOnly day => day.Exists
  | spaced day clock => day.Exists ∧ clock.OnClock
  | joined day clock => day.Exists ∧ clock.OnClock

instance : ∀ key : DigitKey, Decidable key.Exists
  | dayOnly day => inferInstanceAs (Decidable day.Exists)
  | spaced day clock => inferInstanceAs (Decidable (day.Exists ∧ clock.OnClock))
  | joined day clock => inferInstanceAs (Decidable (day.Exists ∧ clock.OnClock))

/-- The date that the digits name, if there is one. -/
def date? : DigitKey → Option DateTime
  | dayOnly day => day.day?.bind (ofDay? · .midnight)
  | spaced day clock => day.day?.bind (KeyFormat.assemble · clock.numbers 0)
  | joined day clock => day.day?.bind (KeyFormat.assemble · clock.numbers 0)

end DigitKey

/-! ### The forms tried on digits -/

namespace KeyFormat

/-- Day and time in digits are read in the strict form if a distance from UTC follows. -/
lemma readZoned_text (day : DayDigits) {c : Char} (hdivider : ∀ cs, divider (c :: cs) = some cs)
    (clock : ClockDigits) {zs : List Char} (hfraction : fraction zs = some (0, zs)) :
    readZoned (day.text ++ c :: (clock.text ++ zs)) = day.day?.bind fun n =>
      (zone zs).bind fun z =>
        if z.2 = [] then (assemble n clock.numbers 0).bind (·.addMinutes? (-z.1)) else none := by
  rw [readZoned, fixedDay_text]
  cases day.day? with
  | none => rfl
  | some n =>
    simp only [Option.map_some, Option.bind_eq_bind, Option.bind_some, hdivider, fixedClock_text,
      hfraction]

/-- A day and a clock with a blank between are read to the second. -/
lemma readSpaced_text (day : DayDigits) (clock : ClockDigits) :
    readSpaced (day.text ++ ' ' :: clock.text) = day.day?.bind (assemble · clock.numbers 0) := by
  have htrim : trimStart (' ' :: (clock.text ++ [])) = clock.text ++ [] := by
    rw [trimStart_cons, if_pos (by decide), clock.text_append, clock.isField_hour.trimStart_append]
  rw [readSpaced, freeDay_bind, ← List.append_nil clock.text]
  simp only [htrim, freeClock_text, Option.bind_eq_bind, Option.bind_some, if_pos]

/-- A day and a clock with a divider between are read to the second. -/
lemma readJoined_text (day : DayDigits) (clock : ClockDigits) :
    readJoined (day.text ++ 'T' :: clock.text) = day.day?.bind (assemble · clock.numbers 0) := by
  rw [readJoined, freeDay_bind, ← List.append_nil clock.text]
  simp only [mark_cons, freeClock_text, Option.bind_eq_bind, Option.bind_some, if_pos]

/-- A day alone is read as its midnight. -/
lemma readDay_text (day : DayDigits) : readDay day.text = day.day?.bind (ofDay? · .midnight) := by
  rw [readDay, ← List.append_nil day.text, freeDay_bind]
  simp only [if_pos]

/-- After a day, a time in the free manner is asked for. -/
lemma readSpaced_eq_none (day : DayDigits) {rest : List Char}
    (h : freeClock false (trimStart rest) = none) : readSpaced (day.text ++ rest) = none := by
  rw [readSpaced, freeDay_bind]
  simp only [h, Option.bind_eq_bind, Option.bind_none, Option.bind_fun_none]

/-- After a day, the mark of a time is asked for. -/
lemma readJoined_eq_none (day : DayDigits) {rest : List Char} (h : mark 'T' rest = none) :
    readJoined (day.text ++ rest) = none := by
  rw [readJoined, freeDay_bind]
  simp only [h, Option.bind_eq_bind, Option.bind_none, Option.bind_fun_none]

/-- After a day, the end of the text is asked for. -/
lemma readDay_eq_none (day : DayDigits) {rest : List Char} (h : rest ≠ []) :
    readDay (day.text ++ rest) = none := by
  rw [readDay, freeDay_bind]
  simp only [if_neg h, Option.bind_fun_none]

end KeyFormat

namespace DigitKey

/-- The strict form asks for a distance from UTC. -/
lemma readZoned_text (key : DigitKey) : KeyFormat.readZoned key.text = none := by
  have hfraction : fraction [] = some (0, []) := rfl
  have hzone : zone [] = none := rfl
  cases key with
  | dayOnly day =>
    rw [text, KeyFormat.readZoned, ← List.append_nil day.text, fixedDay_text]
    cases day.day? <;> rfl
  | spaced day clock =>
    rw [text, ← List.append_nil clock.text,
      KeyFormat.readZoned_text day (fun _ => rfl) clock hfraction, hzone]
    cases day.day? <;> rfl
  | joined day clock =>
    rw [text, ← List.append_nil clock.text,
      KeyFormat.readZoned_text day (fun _ => rfl) clock hfraction, hzone]
    cases day.day? <;> rfl

/-- Digits are read in their own form, and in no other one. -/
lemma read_text (key : DigitKey) (form : KeyFormat) :
    form.read key.text = if form = key.form then key.date? else none := by
  cases form with
  | zoned => rw [KeyFormat.read, readZoned_text, if_neg (by cases key <;> nofun)]
  | spaced =>
    cases key with
    | dayOnly day =>
      rw [text, ← List.append_nil day.text]
      exact KeyFormat.readSpaced_eq_none day rfl
    | spaced day clock => exact KeyFormat.readSpaced_text day clock
    | joined day clock =>
      refine KeyFormat.readSpaced_eq_none day ?_
      rw [trimStart_cons_eq_self (by decide), freeClock,
        freeNumber_cons_eq_none (by decide) (by decide)]
      rfl
  | joined =>
    cases key with
    | dayOnly day =>
      rw [text, ← List.append_nil day.text]
      exact KeyFormat.readJoined_eq_none day rfl
    | spaced day clock => exact KeyFormat.readJoined_eq_none day rfl
    | joined day clock => exact KeyFormat.readJoined_text day clock
  | dayOnly =>
    cases key with
    | dayOnly day => exact KeyFormat.readDay_text day
    | spaced day clock => exact KeyFormat.readDay_eq_none day (List.cons_ne_nil _ _)
    | joined day clock => exact KeyFormat.readDay_eq_none day (List.cons_ne_nil _ _)

/-- The date of a key in digits is the one that the digits name. -/
lemma ofKey?_text (key : DigitKey) : ofKey? key.text = key.date? := by
  simp only [ofKey?, KeyFormat.all, List.findSome?_cons, List.findSome?_nil, read_text]
  cases key.date? with
  | none => simp only [ite_self]
  | some date => cases key <;> rfl

end DigitKey

/-! ### What the digits name -/

namespace Calendar

/-- Four digits are a year of the calendar. -/
lemma DayDigits.year_within (d : DayDigits) : 0 ≤ d.date.year ∧ d.date.year ≤ 9999 := by
  have hlt := d.isField_year.digitsValue_lt
  constructor
  · exact Int.natCast_nonneg _
  · exact Int.le_of_lt_add_one (Int.ofNat_lt.2 hlt)

/-- Digits name the day with their numbers, if it exists. -/
lemma DayDigits.day?_eq (d : DayDigits) :
    d.day? = if d.Exists then some d.date.dayNumber else none :=
  dayOf?_eq _ _ d.year_within

end Calendar

/-- Hours, minutes and seconds are a time exactly if they are on the clock. -/
lemma TimeOfDay.isSome_ofClock?_iff {hour minute second nano : Nat} :
    (ofClock? hour minute second nano).isSome ↔
      hour ≤ 23 ∧ minute ≤ 59 ∧ second ≤ 60 ∧ nano < 10 ^ 9 := by
  by_cases hclock : hour ≤ 23 ∧ minute ≤ 59 ∧ nano < 10 ^ 9
  · rw [ofClock?, dif_pos hclock]
    by_cases hsecond : second ≤ 59
    · rw [dif_pos hsecond]
      exact iff_of_true rfl (by omega)
    · rw [dif_neg hsecond]
      by_cases hleap : second = 60
      · rw [if_pos hleap]
        exact iff_of_true rfl (by omega)
      · rw [if_neg hleap]
        exact iff_of_false Bool.false_ne_true (by omega)
  · rw [ofClock?, dif_neg hclock]
    exact iff_of_false Bool.false_ne_true (by omega)

/-- A time on the clock is one of every day of the calendar. -/
lemma KeyFormat.isSome_assemble_iff {day : Int} (hday : firstDay ≤ day ∧ day ≤ lastDay)
    (clock : Nat × Nat × Nat) (nano : Nat) :
    (assemble day clock nano).isSome ↔
      (TimeOfDay.ofClock? clock.1 clock.2.1 clock.2.2 nano).isSome := by
  unfold assemble
  cases TimeOfDay.ofClock? clock.1 clock.2.1 clock.2.2 nano with
  | none => rfl
  | some time => simp [ofDay?, hday]

/-- Digits of a key name a date exactly if the day and the time exist. -/
lemma DigitKey.isSome_date?_iff (key : DigitKey) : key.date?.isSome ↔ key.Exists := by
  have hday : ∀ d : DayDigits, d.Exists →
      firstDay ≤ d.date.dayNumber ∧ d.date.dayNumber ≤ lastDay := by
    intro d hexists
    have hwithin := CalendarDate.dayNumber_within hexists.2 d.year_within
    omega
  have hclock : ∀ (d : DayDigits) (c : ClockDigits),
      (d.day?.bind (KeyFormat.assemble · c.numbers 0)).isSome ↔ d.Exists ∧ c.OnClock := by
    intro d c
    rw [d.day?_eq]
    by_cases hexists : d.Exists
    · rw [if_pos hexists, Option.bind_some, KeyFormat.isSome_assemble_iff (hday d hexists),
        TimeOfDay.isSome_ofClock?_iff, ClockDigits.OnClock, ClockDigits.numbers]
      simp only [hexists, true_and]
      omega
    · rw [if_neg hexists]
      simp [hexists]
  cases key with
  | dayOnly d =>
    rw [date?, d.day?_eq, Exists]
    by_cases hexists : d.Exists
    · rw [if_pos hexists, Option.bind_some, ofDay?, dif_pos (hday d hexists)]
      simp [hexists]
    · rw [if_neg hexists]
      simp [hexists]
  | spaced d c => exact hclock d c
  | joined d c => exact hclock d c

/-! ### Blanks around digits -/

namespace Calendar

/-- A key that begins with a day begins with no blank. -/
lemma DayDigits.isBlank_head? (d : DayDigits) (rest : List Char) (c : Char)
    (hc : (d.text ++ rest).head? = some c) : isBlank c = false := by
  obtain ⟨e, es, hcons, hdigit⟩ :=
    d.isField_year.exists_cons ('-' :: (d.month ++ '-' :: (d.day ++ rest)))
  rw [d.text_append, hcons, List.head?_cons, Option.some.injEq] at hc
  rw [← hc]
  exact isBlank_of_isDigit hdigit

/-- A key that ends with a day ends with no blank. -/
lemma DayDigits.isBlank_getLast? (d : DayDigits) (c : Char) (hc : d.text.getLast? = some c) :
    isBlank c = false := by
  have htext : d.text = (d.year ++ '-' :: d.month ++ ['-']) ++ d.day := by simp [text]
  rw [htext] at hc
  exact d.isField_day.isBlank_getLast? _ c hc

/-- A key that ends with a clock ends with no blank. -/
lemma ClockDigits.isBlank_getLast? (clock : ClockDigits) (front : List Char) (c : Char)
    (hc : (front ++ clock.text).getLast? = some c) : isBlank c = false := by
  have htext : front ++ clock.text =
      (front ++ clock.hour ++ ':' :: clock.minute ++ [':']) ++ clock.second := by simp [text]
  rw [htext] at hc
  exact clock.isField_second.isBlank_getLast? _ c hc

end Calendar

/-- A key in digits is what is left when blanks around it are cut off. -/
lemma DigitKey.trim_text (key : DigitKey) {before after : List Char}
    (hbefore : ∀ c ∈ before, isBlank c = true) (hafter : ∀ c ∈ after, isBlank c = true) :
    trim (before ++ key.text ++ after) = key.text := by
  cases key with
  | dayOnly d =>
    refine trim_append hbefore hafter ?_ d.isBlank_getLast?
    rw [text, ← List.append_nil d.text]
    exact d.isBlank_head? []
  | spaced d clock =>
    refine trim_append hbefore hafter (d.isBlank_head? _) ?_
    rw [text, List.append_cons]
    exact clock.isBlank_getLast? _
  | joined d clock =>
    refine trim_append hbefore hafter (d.isBlank_head? _) ?_
    rw [text, List.append_cons]
    exact clock.isBlank_getLast? _

end PlotAnnotation
