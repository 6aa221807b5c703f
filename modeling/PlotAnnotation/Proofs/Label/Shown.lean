import PlotAnnotation.Label
import PlotAnnotation.Proofs.Calendar.DayCount

/-!
# What a label shows

`Label.spelled` writes out the three kinds of labels.  Labels are put together field by field, which
could fail at the name of the month; the date of an instant has one of the twelve months, so it
never does (`Composer.label?_eq_ok`).  No label is empty, which leaves the empty text to the
instants without a date.
-/

namespace PlotAnnotation

/-- A natural number has at least one digit. -/
lemma naturalText_ne_empty (n : Nat) : naturalText n ≠ "" := by
  intro h
  have hdigits : Nat.toDigits 10 n = [] := by
    rw [← toList_naturalText, h]
    rfl
  exact Nat.toDigits_ne_nil hdigits

/-- An integer has at least one digit. -/
lemma integerText_ne_empty (n : Int) : integerText n ≠ "" := by
  unfold integerText
  split
  · simp
  · exact naturalText_ne_empty _

namespace Label

/-- The label of a date whose month has the given name. -/
def spelled (date : CalendarDate) (month : String) : Option Granularity → String
  | some .year => integerText date.year
  | some .month => month ++ "-" ++ integerText date.year
  | some .day | none => naturalText date.day ++ "-" ++ month ++ "-" ++ integerText date.year

/-- A label ends in the year, so it is not empty. -/
lemma spelled_ne_empty (date : CalendarDate) (month : String) (granularity : Option Granularity) :
    spelled date month granularity ≠ "" := by
  have hyear := integerText_ne_empty date.year
  match granularity with
  | some .year => exact hyear
  | some .month | some .day | none => simp [spelled]

/-- The fields of a date in one of the twelve months, finest first and joined, spell its label. -/
lemma ofDate_eq_spelled {date : CalendarDate} (hmonth : date.month0 < 12)
    (granularity : Option Granularity) (names : MonthNames) :
    ofDate date granularity names = .ok (spelled date names.short[date.month0] granularity) := by
  have hname : names.shortName date.month0 = .ok names.short[date.month0] :=
    MonthNames.at?_of_lt hmonth
  match granularity with
  | some .year => rfl
  | some .month =>
    simp [ofDate, field, hname, spelled, List.mapM_cons, bind, Except.bind, pure, Except.pure]
  | some .day | none =>
    simp [ofDate, field, hname, spelled, List.mapM_cons, bind, Except.bind, pure, Except.pure,
      String.append_assoc]

end Label

namespace Composer

variable (composer : Composer) (timestamp : Int64) (granularity : Option Granularity)
  (language : Option String)

/-- The label of an instant with a date spells the date. -/
lemma label?_eq_ok {date : CalendarDate}
    (h : CalendarDate.ofInstant? timestamp composer.offset = some date) :
    ∃ hmonth : date.month0 < 12,
      composer.label? timestamp granularity language =
        .ok (Label.spelled date (composer.locales.lookup language).short[date.month0]
          granularity) := by
  have hmonth := ((CalendarDate.exists_iff date).1 (CalendarDate.exists_of_ofInstant? h)).1
  refine ⟨hmonth, ?_⟩
  rw [label?, h]
  exact Label.ofDate_eq_spelled hmonth granularity _

/-- An instant without a date has no label. -/
lemma label?_eq_error (h : CalendarDate.ofInstant? timestamp composer.offset = none) :
    composer.label? timestamp granularity language = .error (.instant timestamp) := by
  rw [label?, h]

/-- A label is only refused for want of a date. -/
lemma label?_eq_error_iff (fault : Fault) :
    composer.label? timestamp granularity language = .error fault ↔
      fault = .instant timestamp ∧
        CalendarDate.ofInstant? timestamp composer.offset = none := by
  cases h : CalendarDate.ofInstant? timestamp composer.offset with
  | none => simp [label?_eq_error _ _ _ _ h, eq_comm]
  | some date =>
    obtain ⟨_, hlabel⟩ := label?_eq_ok composer timestamp granularity language h
    simp [hlabel]

/-- Only an instant without a date has an empty label. -/
lemma label_eq_empty_iff :
    composer.label timestamp granularity language = "" ↔
      CalendarDate.ofInstant? timestamp composer.offset = none := by
  cases h : CalendarDate.ofInstant? timestamp composer.offset with
  | none => simp [label, label?_eq_error _ _ _ _ h]
  | some date =>
    obtain ⟨_, hlabel⟩ := label?_eq_ok composer timestamp granularity language h
    simp [label, hlabel, Label.spelled_ne_empty]

/-- Without a granularity a label is that of a day. -/
lemma label_none : composer.label timestamp none language =
    composer.label timestamp (some .day) language := by
  rfl

end Composer

/-- Only the three names are names of granularities. -/
lemma Granularity.ofName?_eq_none_iff (name : String) :
    ofName? name = none ↔ name ≠ "year" ∧ name ≠ "month" ∧ name ≠ "day" := by
  simp only [ofName?, List.find?_eq_none, beq_iff_eq]
  constructor
  · intro h
    exact ⟨fun e => h year (by decide) e.symm, fun e => h month (by decide) e.symm,
      fun e => h day (by decide) e.symm⟩
  · rintro ⟨hyear, hmonth, hday⟩ granularity - e
    cases granularity with
    | year => exact hyear e.symm
    | month => exact hmonth e.symm
    | day => exact hday e.symm

/-- The label of an instant is refused exactly outside of the calendar, and then for that cause.
Within, it spells the date of the instant with the month's short name in the language.  As a text
it is the same, and empty exactly where it is refused; by a name that is none it is that of a
day. -/
theorem Composer.labels_spell_dates (composer : Composer) (timestamp : Int64)
    (granularity : Option Granularity) (language : Option String) :
    (composer.label? timestamp granularity language = .error (.instant timestamp) ↔
      timestamp.toInt < CalendarDate.firstInstant ∨ CalendarDate.lastInstant < timestamp.toInt) ∧
    (∀ fault, composer.label? timestamp granularity language = .error fault →
      fault = .instant timestamp) ∧
    (∀ text, composer.label? timestamp granularity language = .ok text ↔
      ∃ date, CalendarDate.ofInstant? timestamp composer.offset = some date ∧
        ∃ hmonth : date.month0 < 12,
          text = Label.spelled date (composer.locales.lookup language).short[date.month0]
            granularity) ∧
    (∀ text, composer.label? timestamp granularity language = .ok text →
      composer.label timestamp granularity language = text) ∧
    (composer.label timestamp granularity language = "" ↔
      timestamp.toInt < CalendarDate.firstInstant ∨ CalendarDate.lastInstant < timestamp.toInt) ∧
    (∀ name, name ≠ "year" → name ≠ "month" → name ≠ "day" →
      composer.labelByName timestamp name language =
        composer.label timestamp (some .day) language) := by
  refine ⟨?_, ?_, ?_, ?_, ?_, ?_⟩
  · rw [label?_eq_error_iff, CalendarDate.ofInstant?_eq_none_iff]
    exact and_iff_right rfl
  · exact fun fault h => ((label?_eq_error_iff _ _ _ _ _).1 h).1
  · intro text
    cases h : CalendarDate.ofInstant? timestamp composer.offset with
    | none => simp [label?_eq_error _ _ _ _ h]
    | some date =>
      obtain ⟨hmonth, hlabel⟩ := label?_eq_ok composer timestamp granularity language h
      rw [hlabel, Except.ok.injEq]
      constructor
      · rintro rfl
        exact ⟨date, rfl, hmonth, rfl⟩
      · rintro ⟨_, ⟨⟩, _, rfl⟩
        rfl
  · intro text h
    rw [label, h]
  · rw [label_eq_empty_iff, CalendarDate.ofInstant?_eq_none_iff]
  · intro name hyear hmonth hday
    rw [labelByName, (Granularity.ofName?_eq_none_iff name).2 ⟨hyear, hmonth, hday⟩, label_none]

end PlotAnnotation
