import PlotAnnotation.Calendar.DateTime
import PlotAnnotation.Proofs.Label.Shown

/-!
# The instants of times

A time of the calendar becomes an instant, and the instant has a date again.  It is the date of the
time (`ofInstant?_timestamp`) except for the leap second that ends a day: its instant is the first
one of the next day (`ofInstant?_timestamp_of_isDayEnd`), and there is none in the calendar after
the last day (`ofInstant?_timestamp_eq_none`).

The label of the instant is therefore that of the date of the time, or of the day after
(`hasLabel_label`).
-/

namespace PlotAnnotation

namespace DateTime

open CalendarDate

/-- The leap second at the end of a day. -/
def IsDayEnd (t : DateTime) : Prop :=
  t.time.second = 86399 ∧ 10 ^ 9 ≤ t.time.nano

variable {t : DateTime} {date : CalendarDate}

/-- The instant of a time falls on its day. -/
lemma millis_div (h : ¬t.IsDayEnd) : t.millis / 1000 / 86400 = t.day := by
  have hsecond := t.time.second_lt
  have hnano := t.time.nano_lt
  unfold IsDayEnd at h
  unfold millis seconds
  omega

/-- The instant of the leap second at the end of a day falls on the next day. -/
lemma millis_div_of_isDayEnd (h : t.IsDayEnd) : t.millis / 1000 / 86400 = t.day + 1 := by
  have hnano := t.time.nano_lt
  unfold IsDayEnd at h
  unfold millis seconds
  omega

/-- What is put together from a day and a time is the time of that day. -/
lemma ofDay?_eq_some_iff {day : Int} {time : TimeOfDay} :
    ofDay? day time = some t ↔ day = t.day ∧ time = t.time := by
  constructor
  · intro h
    obtain ⟨_, h⟩ := Option.dite_none_right_eq_some.1 h
    obtain rfl := Option.some.inj h
    exact ⟨rfl, rfl⟩
  · rintro ⟨rfl, rfl⟩
    exact dif_pos ⟨t.first_le, t.le_last⟩

/-- The date that a time is of exists and has the number of its day. -/
lemma exists_of_ofDate? {time : TimeOfDay} (h : ofDate? date time = some t) :
    date.Exists ∧ date.dayNumber = t.day := by
  rw [ofDate?, Option.ite_none_right_eq_some, ofDay?_eq_some_iff] at h
  exact ⟨h.1, h.2.1⟩

/-- Every time is of some date. -/
lemma ofDate?_ofDayNumber (t : DateTime) : ofDate? (ofDayNumber t.day) t.time = some t := by
  rw [ofDate?, if_pos (exists_ofDayNumber t.day), dayNumber_ofDayNumber]
  exact ofDay?_eq_some_iff.2 ⟨rfl, rfl⟩

/-! ### Dates of the instants -/

/-- No time is before the first instant of the calendar. -/
lemma firstInstant_le_millis (t : DateTime) : firstInstant ≤ t.millis := by
  have hfirst := t.first_le
  unfold firstDay at hfirst
  unfold firstInstant millis seconds
  omega

/-- The date of an instant in the calendar is that of the day it falls on. -/
lemma ofInstant?_eq_some (h : t.millis ≤ lastInstant) :
    ofInstant? t.timestamp .utc = some (ofDayNumber (t.millis / 1000 / 86400)) := by
  have hin : firstInstant ≤ t.millis ∧ t.millis ≤ lastInstant := ⟨firstInstant_le_millis t, h⟩
  have hutc : UtcOffset.utc.seconds = 0 := rfl
  simp only [ofInstant?, toInt_timestamp, if_pos hin, hutc, Int.add_zero]

/-- The instant of a time has the date of the time. -/
lemma ofInstant?_timestamp (hdate : ofDate? date t.time = some t) (h : ¬t.IsDayEnd) :
    ofInstant? t.timestamp .utc = some date := by
  obtain ⟨hexists, hday⟩ := exists_of_ofDate? hdate
  have hin : t.millis ≤ lastInstant := by
    have hlast := t.le_last
    have hdiv := millis_div h
    unfold lastDay at hlast
    unfold lastInstant
    omega
  rw [ofInstant?_eq_some hin, millis_div h, ← hday, ofDayNumber_dayNumber hexists]

/-- The instant of the leap second at the end of a day has the date of the next day. -/
lemma ofInstant?_timestamp_of_isDayEnd (hdate : ofDate? date t.time = some t) (h : t.IsDayEnd)
    (hnext : date.next.dayNumber ≤ lastDay) : ofInstant? t.timestamp .utc = some date.next := by
  obtain ⟨hexists, hday⟩ := exists_of_ofDate? hdate
  have hdiv := millis_div_of_isDayEnd h
  rw [dayNumber_next hexists, hday] at hnext
  have hin : t.millis ≤ lastInstant := by
    unfold lastDay at hnext
    unfold lastInstant
    omega
  rw [ofInstant?_eq_some hin, hdiv, ← hday, ← dayNumber_next hexists,
    ofDayNumber_dayNumber (exists_next hexists)]

/-- The instant of the leap second at the end of the last day has no date. -/
lemma ofInstant?_timestamp_eq_none (hdate : ofDate? date t.time = some t) (h : t.IsDayEnd)
    (hnext : lastDay < date.next.dayNumber) : ofInstant? t.timestamp .utc = none := by
  obtain ⟨hexists, hday⟩ := exists_of_ofDate? hdate
  have hdiv := millis_div_of_isDayEnd h
  rw [dayNumber_next hexists, hday] at hnext
  rw [ofInstant?_eq_none_iff, toInt_timestamp]
  unfold lastDay at hnext
  unfold lastInstant
  omega

end DateTime

/-! ### Labels -/

/-- The label of an instant is the label of its date. -/
lemma Composer.ofDate_eq_label (composer : Composer) {timestamp : Int64} {date : CalendarDate}
    (h : CalendarDate.ofInstant? timestamp composer.offset = some date)
    (granularity : Option Granularity) (language : Option String) :
    Label.ofDate date granularity (composer.locales.lookup language) =
      .ok (composer.label timestamp granularity language) := by
  have hdate : composer.label? timestamp granularity language =
      Label.ofDate date granularity (composer.locales.lookup language) := by
    rw [label?, h]
  obtain ⟨_, hlabel⟩ := composer.label?_eq_ok timestamp granularity language h
  rw [← hdate, label, hlabel]

namespace DateTime

/-- The label of a time: that of its date, except for the leap second at the end of a day, which has
the label of the next day, or an empty one after the last day of the calendar. -/
def HasLabel (t : DateTime) (granularity : Option Granularity) (names : MonthNames)
    (label : String) : Prop :=
  ∃ date, ofDate? date t.time = some t ∧
    (¬t.IsDayEnd → Label.ofDate date granularity names = .ok label) ∧
    (t.IsDayEnd →
      if lastDay < date.next.dayNumber then label = ""
      else Label.ofDate date.next granularity names = .ok label)

/-- The label of the instant of a time is the label of the time. -/
theorem hasLabel_label (t : DateTime) (locales : LocaleTable) (granularity : Option Granularity)
    (language : Option String) :
    t.HasLabel granularity (locales.lookup language)
      (Composer.label { locales, offset := .utc } t.timestamp granularity language) := by
  have hdate := ofDate?_ofDayNumber t
  refine ⟨_, hdate, ?_, ?_⟩
  · intro h
    exact Composer.ofDate_eq_label { locales } (ofInstant?_timestamp hdate h) granularity language
  · intro h
    by_cases hnext : lastDay < (CalendarDate.ofDayNumber t.day).next.dayNumber
    · rw [if_pos hnext, Composer.label_eq_empty_iff]
      exact ofInstant?_timestamp_eq_none hdate h hnext
    · rw [if_neg hnext]
      exact Composer.ofDate_eq_label { locales }
        (ofInstant?_timestamp_of_isDayEnd hdate h (Int.not_lt.1 hnext)) granularity language

end DateTime

end PlotAnnotation
