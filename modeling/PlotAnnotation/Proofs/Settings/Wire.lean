import PlotAnnotation.Proofs.Json.Record
import PlotAnnotation.Proofs.Settings.Form

/-!
# Settings in their wire form

The wire form of settings has the same names as a form has, so it can be read in two ways: as
settings that were written, and as a form.  The first gives back any settings (`ofTree?_ofValue`).
The second is stricter, as a form holds only known fields and takes an empty text for none; it gives
back exactly the settings that are `IsReadable` (`settings_toForm_iff`).  Whatever was accepted from
a form is readable, so for such settings the two readers agree.
-/

namespace PlotAnnotation

open Json

/-- A width comes back from its name. -/
lemma BucketWidth.ofTree?_ofValue (w : BucketWidth) :
    Wire.ofTree? (Tree.ofValue (Wire.toValue w)) = some w :=
  ofName?_name w

namespace Form

/-- A text comes back from a form unless it is empty. -/
lemma text?_ofText?_iff {s : Option String} : text? (some (.ofText? s)) = s ↔ s ≠ some "" := by
  cases s with
  | none => exact iff_of_true rfl (Option.some_ne_none "").symm
  | some name =>
    rw [text?_eq_some_iff]
    simp [Value.ofText?]

/-- The name of a field comes back from a form if it is a known one and not empty. -/
lemma field_ofText?_iff {key : SettingKey} {known : List String} {s : Option String} :
    field key known (some (.ofText? s)) = .ok s ↔
      ∀ name, s = some name → name ≠ "" ∧ name ∈ known := by
  cases s with
  | none => exact iff_of_true (field_eq_none_iff.2 rfl) (fun name h => by contradiction)
  | some field =>
    rw [field_eq_some_iff]
    constructor
    · rintro ⟨⟨-, hne⟩, hknown⟩ name ⟨⟩
      exact ⟨hne, hknown⟩
    · intro h
      obtain ⟨hne, hknown⟩ := h field rfl
      exact ⟨⟨rfl, hne⟩, hknown⟩

end Form

namespace GraphSettings

variable (s : GraphSettings)

/-- The entries that settings are written as. -/
def entries : List (String × Value) :=
  [("show_date", .bool s.showDate), ("date_field", .ofText? s.dateField),
    ("date_interval", Wire.toValue s.width), ("show_count", .bool s.showCount),
    ("count_field", .ofText? s.countField), ("count_label", .ofText? s.countLabel)]

lemma toValue_eq_entries : Wire.toValue s = .object s.entries := rfl

lemma nodup_keys_entries : (Keyed.keys s.entries).Nodup := by
  simp [entries, Keyed.keys]

lemma distinct_toValue : (Wire.toValue s).Distinct := by
  have htext : ∀ s, (Value.ofText? s).Distinct := by
    intro s
    cases s <;> trivial
  exact ⟨s.nodup_keys_entries, trivial, htext _, trivial, trivial, htext _, htext _, trivial⟩

/-- The wire form is an object without values inside of its values. -/
lemma depth_toValue : (Wire.toValue s).depth = 1 := by
  have htext : ∀ s, (Value.ofText? s).depth = 0 := by
    intro s
    cases s <;> rfl
  have hwidth : (Wire.toValue s.width).depth = 0 := rfl
  rw [toValue_eq_entries]
  simp [entries, Value.depth, Value.entriesDepth, htext, hwidth]

/-- The wire form of settings, seen as a form. -/
def toForm : Object where
  entries := s.entries
  distinct := s.distinct_toValue

/-- Settings come back from their wire form. -/
theorem ofTree?_ofValue : Wire.ofTree? (Tree.ofValue (Wire.toValue s)) = some s := by
  have hfields := fields?_ofValue ["show_date", "date_field", "date_interval", "show_count",
    "count_field", "count_label"] s.nodup_keys_entries
  have hshowDate : (Slot.ofMember (Keyed.find? "show_date" s.entries)).required Tree.toBool? =
      some s.showDate := rfl
  have hdateField : (Slot.ofMember (Keyed.find? "date_field" s.entries)).optional Tree.toText? =
      some s.dateField := Slot.optional_text s.dateField
  have hwidth : (Slot.ofMember (Keyed.find? "date_interval" s.entries)).required
      (fun t => t.toName?.bind BucketWidth.ofName?) = some s.width := s.width.ofTree?_ofValue
  have hshowCount : (Slot.ofMember (Keyed.find? "show_count" s.entries)).required Tree.toBool? =
      some s.showCount := rfl
  have hcountField : (Slot.ofMember (Keyed.find? "count_field" s.entries)).optional Tree.toText? =
      some s.countField := Slot.optional_text s.countField
  have hcountLabel : (Slot.ofMember (Keyed.find? "count_label" s.entries)).optional Tree.toText? =
      some s.countLabel := Slot.optional_text s.countLabel
  rw [toValue_eq_entries]
  simp only [Wire.ofTree?]
  rw [hfields]
  simp only [Option.bind_eq_bind, Option.bind_some, hshowDate, hdateField, hwidth, hshowCount,
    hcountField, hcountLabel]
  rfl

/-- Settings that a form can hold: the fields are known ones, and no text is empty. -/
structure IsReadable (known : List String) (s : GraphSettings) : Prop where
  dateField : ∀ name, s.dateField = some name → name ≠ "" ∧ name ∈ known
  countField : ∀ name, s.countField = some name → name ≠ "" ∧ name ∈ known
  countLabel : s.countLabel ≠ some ""

/-- Settings that were accepted from a form are readable. -/
lemma isReadable_of_settings {form : Object} {known : List String} {s : GraphSettings}
    (h : Form.settings form known = .ok s) : s.IsReadable known := by
  obtain ⟨-, -, hdateField, -, hcountField, hlabel⟩ := Form.settings_eq_ok_iff.1 h
  constructor
  case dateField =>
    intro name hname
    rw [hname, Form.field_eq_some_iff] at hdateField
    exact ⟨hdateField.1.2, hdateField.2⟩
  case countField =>
    intro name hname
    rw [hname, Form.field_eq_some_iff] at hcountField
    exact ⟨hcountField.1.2, hcountField.2⟩
  case countLabel =>
    intro hempty
    rw [hempty, Form.text?_eq_some_iff] at hlabel
    exact hlabel.2 rfl

/-- Settings come back from their wire form, read as a form, exactly if they are readable. -/
theorem settings_toForm_iff {known : List String} :
    Form.settings s.toForm known = .ok s ↔ s.IsReadable known := by
  refine ⟨isReadable_of_settings, fun h => Form.settings_eq_ok_iff.2 ⟨?_, rfl, ?_, rfl, ?_, ?_⟩⟩
  · exact Form.width_eq_ok_iff.2 rfl
  · exact Form.field_ofText?_iff.2 h.dateField
  · exact Form.field_ofText?_iff.2 h.countField
  · exact Form.text?_ofText?_iff.2 h.countLabel

/-- **Two readers of settings.**  The wire form of settings that were accepted from a form is an
object, which as a form gives the same settings again, with the same known fields, and is decoded as
these settings.  The text of the wire form is read as that object and decoded as these settings. -/
theorem settings_toForm {form : Object} {known : List String} {s : GraphSettings}
    (h : Form.settings form known = .ok s) :
    ∃ written : Object, Wire.toValue s = written.toValue ∧
      Form.settings written known = .ok s ∧
      ofValue? written.toValue = some s ∧
      Value.ofString? (toText s) = some written.toValue ∧
      ofString? GraphSettings (toText s) = some s := by
  have hdepth : (Wire.toValue s).depth ≤ depthLimit := by
    rw [s.depth_toValue]
    decide
  refine ⟨s.toForm, rfl, s.settings_toForm_iff.2 (isReadable_of_settings h), s.ofTree?_ofValue,
    ?_, ?_⟩
  · rw [toText, Value.ofString?_compact s.distinct_toValue, if_pos hdepth]
    rfl
  · rw [ofString?_toText hdepth]
    exact s.ofTree?_ofValue

/-- A form with words for truth values, an empty text and a key of its own. -/
def spokenForm : Object where
  entries := [("date_interval", .string "hour"), ("show_date", .string "YES"),
    ("date_field", .string "collected"), ("show_count", .null), ("count_field", .string ""),
    ("count_label", .string "Speci\"mens"), ("title", .array [.null])]
  distinct := by
    simp [Value.Distinct, Value.EntriesDistinct, Value.AllDistinct, Keyed.keys]

/-- What the form says. -/
def spokenSettings : GraphSettings where
  showDate := true
  dateField := some "collected"
  width := .hour
  showCount := false
  countField := none
  countLabel := some "Speci\"mens"

/-- Settings that were given in words come back from their wire form. -/
theorem settings_toForm_spoken :
    Form.settings spokenForm ["country", "collected"] = .ok spokenSettings ∧
    ∃ written : Object, Wire.toValue spokenSettings = written.toValue ∧
      Form.settings written ["country", "collected"] = .ok spokenSettings ∧
      ofValue? written.toValue = some spokenSettings ∧
      Value.ofString? (toText spokenSettings) = some written.toValue ∧
      ofString? GraphSettings (toText spokenSettings) = some spokenSettings :=
  have h : Form.settings spokenForm ["country", "collected"] = .ok spokenSettings := rfl
  ⟨h, settings_toForm h⟩

end GraphSettings

end PlotAnnotation
