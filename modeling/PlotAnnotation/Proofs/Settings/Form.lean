import Mathlib.Tactic.Lemma
import PlotAnnotation.Settings

/-!
# What is read from a form

A form is accepted if each of its settings is, and the settings returned are then those that were
read (`settings_eq_ok_iff`).  The readers are told by the values they accept: a truth value is read
as true from `true` or a word for it (`bool_eq_true_iff`), and a field from a known name that is not
empty (`field_eq_some_iff`).
-/

namespace PlotAnnotation

open Json

/-- A width has the name it is found under. -/
lemma BucketWidth.ofName?_eq_some_iff {s : String} {w : BucketWidth} :
    ofName? s = some w ↔ s = w.name := by
  constructor
  · intro h
    have hname := List.find?_some h
    rw [beq_iff_eq] at hname
    exact hname.symm
  · rintro rfl
    exact ofName?_name w

/-- Every width has a name. -/
lemma BucketWidth.name_ne_empty (w : BucketWidth) : w.name ≠ "" := by
  cases w <;> decide

namespace Form

/-- The words that are read as true. -/
def trueWords : List String := ["true", "yes", "t", "y", "1"]

/-- A value is read as true if it is the truth value, or a word for it in letters of any case. -/
def ReadsTrue (v : Option Value) : Prop :=
  v = some (.bool true) ∨
    ∃ s, v = some (.string s) ∧ String.ofList (Text.lower s.toList) ∈ trueWords

/-- Only a text that is not empty is read as a text. -/
lemma text?_eq_some_iff {v : Option Value} {s : String} :
    text? v = some s ↔ v = some (.string s) ∧ s ≠ "" := by
  unfold text?
  split
  · next s' =>
    rw [Option.ite_none_left_eq_some, Option.some.injEq, Option.some.injEq, Value.string.injEq]
    constructor
    · rintro ⟨hne, rfl⟩
      exact ⟨rfl, hne⟩
    · rintro ⟨rfl, hne⟩
      exact ⟨hne, rfl⟩
  · next hother =>
    refine iff_of_false (Option.some_ne_none s).symm ?_
    rintro ⟨rfl, -⟩
    exact hother s rfl

/-- A word is true exactly if it is one of the words for it. -/
lemma boolOfWord?_eq_true_iff {s : String} :
    boolOfWord? s = some true ↔ String.ofList (Text.lower s.toList) ∈ trueWords := by
  unfold boolOfWord?
  simp only
  split
  · next hmem => exact iff_of_true rfl hmem
  · next hmem =>
    refine iff_of_false ?_ hmem
    split
    · simp
    · simp

/-- What is read as true. -/
lemma bool_eq_true_iff (key : SettingKey) {v : Option Value} :
    bool key v = .ok true ↔ ReadsTrue v := by
  unfold bool ReadsTrue
  split
  · simp
  · simp
  · simp
  · next s =>
    have hword : (some (Value.string s) = some (.bool true) ∨ ∃ s', some (Value.string s) =
        some (.string s') ∧ String.ofList (Text.lower s'.toList) ∈ trueWords) ↔
          String.ofList (Text.lower s.toList) ∈ trueWords := by
      simp
    rw [hword, ← boolOfWord?_eq_true_iff]
    split
    · next b hb => rw [hb, Except.ok.injEq, Option.some.injEq]
    · next hb => simp [hb]
  · next hbool hstring =>
    refine iff_of_false (by simp) ?_
    rintro (h | ⟨s, h, -⟩)
    · exact hbool true (Option.some.inj h)
    · exact hstring s (Option.some.inj h)

/-- What is read as the name of a field. -/
lemma field_eq_some_iff {key : SettingKey} {known : List String} {v : Option Value}
    {name : String} : field key known v = .ok (some name) ↔
      (v = some (.string name) ∧ name ≠ "") ∧ name ∈ known := by
  rw [← text?_eq_some_iff]
  unfold field
  cases text? v with
  | none => simp
  | some name' =>
    by_cases hknown : name' ∈ known
    · simp only [if_pos hknown, Except.ok.injEq, Option.some.injEq]
      exact ⟨fun h => ⟨h, h ▸ hknown⟩, fun h => h.1⟩
    · simp only [if_neg hknown, Option.some.injEq]
      refine iff_of_false (by simp) ?_
      rintro ⟨rfl, h⟩
      exact hknown h

/-- What is read as no field. -/
lemma field_eq_none_iff {key : SettingKey} {known : List String} {v : Option Value} :
    field key known v = .ok none ↔ text? v = none := by
  unfold field
  cases text? v with
  | none => simp
  | some name =>
    simp only
    split <;> simp

/-- What is read as a width: its name. -/
lemma width_eq_ok_iff {v : Option Value} {w : BucketWidth} :
    width v = .ok w ↔ v = some (.string w.name) := by
  unfold width
  split
  · simp
  · simp
  · next s =>
    rw [Option.some.injEq, Value.string.injEq]
    split
    · next hempty =>
      refine iff_of_false (by simp) ?_
      rw [hempty]
      exact fun h => w.name_ne_empty h.symm
    · rw [← BucketWidth.ofName?_eq_some_iff, BucketWidth.ofName]
      split
      · next w' hw => rw [hw, Except.ok.injEq, Option.some.injEq]
      · next hw => simp [hw]
  · next hstring =>
    refine iff_of_false (by simp) ?_
    intro h
    exact hstring w.name (Option.some.inj h)

/-- A form is accepted exactly if every setting is, and then its settings are what was read. -/
theorem settings_eq_ok_iff {form : Object} {known : List String} {s : GraphSettings} :
    settings form known = .ok s ↔
      width (form.find? "date_interval") = .ok s.width ∧
      bool .showDate (form.find? "show_date") = .ok s.showDate ∧
      field .dateField known (form.find? "date_field") = .ok s.dateField ∧
      bool .showCount (form.find? "show_count") = .ok s.showCount ∧
      field .countField known (form.find? "count_field") = .ok s.countField ∧
      text? (form.find? "count_label") = s.countLabel := by
  obtain ⟨showDate, dateField, w, showCount, countField, countLabel⟩ := s
  unfold settings
  cases width (form.find? "date_interval") with
  | error fault => simp [bind, Except.bind]
  | ok w' =>
  cases bool .showDate (form.find? "show_date") with
  | error fault => simp [bind, Except.bind]
  | ok showDate' =>
  cases field .dateField known (form.find? "date_field") with
  | error fault => simp [bind, Except.bind]
  | ok dateField' =>
  cases bool .showCount (form.find? "show_count") with
  | error fault => simp [bind, Except.bind]
  | ok showCount' =>
  cases field .countField known (form.find? "count_field") with
  | error fault => simp [bind, Except.bind]
  | ok countField' =>
    simp only [bind, Except.bind, pure, Except.pure, Except.ok.injEq, GraphSettings.mk.injEq]
    constructor
    · rintro ⟨hshowDate, hdateField, hwidth, hshowCount, hcountField, hlabel⟩
      exact ⟨hwidth, hshowDate, hdateField, hshowCount, hcountField, hlabel⟩
    · rintro ⟨hwidth, hshowDate, hdateField, hshowCount, hcountField, hlabel⟩
      exact ⟨hshowDate, hdateField, hwidth, hshowCount, hcountField, hlabel⟩

end Form

end PlotAnnotation
