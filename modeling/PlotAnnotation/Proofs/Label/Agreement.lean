import Mathlib.Data.List.Nodup
import PlotAnnotation.Proofs.Label.Shown

/-!
# What a label tells of its date

A label is made of the fields that are no finer than its granularity, so dates that agree in these
fields have one label, in every language (`Label.spelled_congr`).

The converse needs that a label can be taken apart again (`Label.spelled_eq_iff`).  The first `-`
ends the day, the next one the month; the year comes last, so the sign of a negative year is never
taken for a separator.  This asks of a language that its short names of months differ and have no
`-` in them, which holds of the four that are built in.
-/

namespace PlotAnnotation

/-! ### Numbers and separators -/

/-- Different numbers have different digits. -/
lemma naturalText_injective : Function.Injective naturalText := by
  intro m n h
  have hdigits : Nat.toDigits 10 m = Nat.toDigits 10 n := by
    rw [← toList_naturalText, ← toList_naturalText, h]
  rw [← Nat.ofDigitChars_ten_toDigits (n := m), hdigits, Nat.ofDigitChars_ten_toDigits]

/-- Digits have no separator among them. -/
lemma not_mem_naturalText (n : Nat) : '-' ∉ (naturalText n).toList := by
  rw [toList_naturalText]
  intro hmem
  have hdigit := Nat.isDigit_of_mem_toDigits (by decide) (by decide) hmem
  contradiction

/-- Different integers have different texts; a sign is no digit. -/
lemma integerText_injective : Function.Injective integerText := by
  -- the text of a number without sign is not that of one with a sign
  have hsign : ∀ m n : Nat, "-" ++ naturalText m ≠ naturalText n := by
    intro m n h
    refine not_mem_naturalText n ?_
    rw [← h, String.toList_append]
    exact List.mem_append_left _ List.mem_cons_self
  intro m n h
  unfold integerText at h
  split at h
  · split at h
    · have habs := naturalText_injective ((String.append_right_inj "-").1 h)
      omega
    · exact absurd h (hsign _ _)
  · split at h
    · exact absurd h.symm (hsign _ _)
    · have habs := naturalText_injective h
      omega

/-- A text is cut at its first separator in one way only. -/
lemma append_separator_inj {a b s t : String} (ha : '-' ∉ a.toList) (hb : '-' ∉ b.toList) :
    a ++ "-" ++ s = b ++ "-" ++ t ↔ a = b ∧ s = t := by
  have hpos : ∀ l : List Char, '-' ∉ l → ∀ c ∈ l, (c != '-') = true := by
    intro l hl c hc
    rw [bne_iff_ne]
    rintro rfl
    exact hl hc
  -- what stands before the first separator of such a text
  have hfront : ∀ l r : List Char, '-' ∉ l → (l ++ '-' :: r).takeWhile (· != '-') = l := by
    intro l r hl
    rw [List.takeWhile_append_of_pos (hpos l hl), List.takeWhile_cons]
    simp
  constructor
  · intro h
    have hlist : a.toList ++ '-' :: s.toList = b.toList ++ '-' :: t.toList := by
      simpa using congrArg String.toList h
    have hab : a.toList = b.toList := by
      rw [← hfront a.toList s.toList ha, hlist, hfront b.toList t.toList hb]
    rw [hab, List.append_cancel_left_eq, List.cons.injEq] at hlist
    exact ⟨String.toList_inj.1 hab, String.toList_inj.1 hlist.2⟩
  · rintro ⟨rfl, rfl⟩
    rfl

/-! ### Names of months -/

namespace MonthNames

/-- The short names tell the months apart, also within a label. -/
def Telling (names : MonthNames) : Prop :=
  names.short.toList.Nodup ∧ ∀ name ∈ names.short.toList, '-' ∉ name.toList

instance (names : MonthNames) : Decidable names.Telling :=
  inferInstanceAs (Decidable (_ ∧ _))

/-- Telling names are the same for the same month only. -/
lemma Telling.short_inj {names : MonthNames} (h : names.Telling) {i j : Nat} (hi : i < 12)
    (hj : j < 12) : names.short[i] = names.short[j] ↔ i = j := by
  rw [← Vector.getElem_toList (by simpa using hi), ← Vector.getElem_toList (by simpa using hj)]
  exact h.1.getElem_inj_iff

/-- Telling names have no hyphen. -/
lemma Telling.not_mem_short {names : MonthNames} (h : names.Telling) {i : Nat} (hi : i < 12) :
    '-' ∉ names.short[i].toList :=
  h.2 _ (by simp)

end MonthNames

namespace LocaleTable

/-- What is found under a key is one of the entries. -/
lemma mem_of_find? {key : String} {names : MonthNames} {entries : List (String × MonthNames)}
    (h : Keyed.find? key entries = some names) : ∃ code, (code, names) ∈ entries := by
  induction entries with
  | nil => contradiction
  | cons e entries ih =>
    obtain ⟨code, names'⟩ := e
    rw [Keyed.find?] at h
    split at h
    · obtain rfl := Option.some.inj h
      exact ⟨code, List.mem_cons_self⟩
    · obtain ⟨code', hmem⟩ := ih h
      exact ⟨code', List.mem_cons_of_mem _ hmem⟩

/-- The names of the fallback are those of an entry. -/
lemma fallback_mem (table : LocaleTable) : ∃ code, (code, table.fallback) ∈ table.entries :=
  mem_of_find? (Option.some_get _).symm

/-- Whatever the language, its names are those of an entry. -/
lemma lookup_mem (table : LocaleTable) (language : Option String) :
    ∃ code, (code, table.lookup language) ∈ table.entries := by
  cases language with
  | none => exact table.fallback_mem
  | some code =>
    unfold lookup
    split
    · contradiction
    next heq =>
    obtain rfl := Option.some.inj heq
    split
    · exact table.fallback_mem
    split
    · next hfound => exact mem_of_find? hfound
    · cases hprimary : Keyed.find? (primary code) table.entries with
      | none => exact table.fallback_mem
      | some names => exact mem_of_find? hprimary

/-- In every built-in language the months are told apart. -/
lemma telling_builtin (language : Option String) : (builtin.lookup language).Telling := by
  have hall : ∀ e ∈ builtin.entries, e.2.Telling := by
    decide
  obtain ⟨code, hmem⟩ := builtin.lookup_mem language
  exact hall _ hmem

end LocaleTable

/-! ### Dates that agree -/

/-- The dates have the same fields, as far as a granularity shows them. -/
def CalendarDate.Agree (granularity : Option Granularity) (d e : CalendarDate) : Prop :=
  match granularity with
  | some .year => d.year = e.year
  | some .month => d.year = e.year ∧ d.month0 = e.month0
  | some .day | none => d = e

namespace Label

variable {d e : CalendarDate}

/-- Dates that agree are spelled alike, whatever the months are called. -/
lemma spelled_congr {granularity : Option Granularity} (h : d.Agree granularity e)
    (names : MonthNames) (hd : d.month0 < 12) (he : e.month0 < 12) :
    spelled d names.short[d.month0] granularity = spelled e names.short[e.month0] granularity := by
  match granularity with
  | some .year => exact congrArg integerText h
  | some .month =>
    obtain ⟨hyear, hmonth⟩ := h
    simp only [spelled, hyear, hmonth]
  | some .day | none =>
    obtain rfl : d = e := h
    rfl

/-- Where the months are told apart, only dates that agree are spelled alike. -/
lemma spelled_eq_iff (granularity : Option Granularity) {names : MonthNames} (h : names.Telling)
    (hd : d.month0 < 12) (he : e.month0 < 12) :
    spelled d names.short[d.month0] granularity =
      spelled e names.short[e.month0] granularity ↔ d.Agree granularity e := by
  -- the two fields that every finer label ends with
  have hmonth : names.short[d.month0] ++ "-" ++ integerText d.year =
      names.short[e.month0] ++ "-" ++ integerText e.year ↔
        d.month0 = e.month0 ∧ d.year = e.year := by
    rw [append_separator_inj (h.not_mem_short hd) (h.not_mem_short he), h.short_inj hd he,
      integerText_injective.eq_iff]
  have hday : naturalText d.day ++ "-" ++ names.short[d.month0] ++ "-" ++ integerText d.year =
      naturalText e.day ++ "-" ++ names.short[e.month0] ++ "-" ++ integerText e.year ↔ d = e := by
    have hassoc : ∀ day month year : String,
        day ++ "-" ++ month ++ "-" ++ year = day ++ "-" ++ (month ++ "-" ++ year) := by
      intro day month year
      simp only [String.append_assoc]
    rw [hassoc, hassoc, append_separator_inj (not_mem_naturalText _) (not_mem_naturalText _),
      hmonth, naturalText_injective.eq_iff]
    obtain ⟨year, month0, day⟩ := d
    obtain ⟨year', month0', day'⟩ := e
    rw [CalendarDate.mk.injEq]
    exact ⟨fun ⟨hday, hmonth, hyear⟩ => ⟨hyear, hmonth, hday⟩,
      fun ⟨hyear, hmonth, hday⟩ => ⟨hday, hmonth, hyear⟩⟩
  match granularity with
  | some .year => exact integerText_injective.eq_iff
  | some .month => exact hmonth.trans and_comm
  | some .day | none => exact hday

end Label

/-! ### Labels of two instants -/

/-- Both instants have a label, and it is the same. -/
def Composer.SameLabel (composer : Composer) (t u : Int64) (granularity : Option Granularity)
    (language : Option String) : Prop :=
  ∃ text, composer.label? t granularity language = .ok text ∧
    composer.label? u granularity language = .ok text

/-- Two instants have one label exactly if the labels of their dates are spelled alike. -/
lemma Composer.sameLabel_iff (composer : Composer) {t u : Int64} {d e : CalendarDate}
    (ht : CalendarDate.ofInstant? t composer.offset = some d)
    (hu : CalendarDate.ofInstant? u composer.offset = some e)
    (granularity : Option Granularity) (language : Option String) :
    ∃ (hd : d.month0 < 12) (he : e.month0 < 12),
      composer.SameLabel t u granularity language ↔
        Label.spelled d (composer.locales.lookup language).short[d.month0] granularity =
          Label.spelled e (composer.locales.lookup language).short[e.month0] granularity := by
  obtain ⟨hd, hlabel⟩ := composer.label?_eq_ok t granularity language ht
  obtain ⟨he, hlabel'⟩ := composer.label?_eq_ok u granularity language hu
  refine ⟨hd, he, ?_⟩
  unfold SameLabel
  rw [hlabel, hlabel']
  constructor
  · rintro ⟨text, h, h'⟩
    exact (Except.ok.inj h).trans (Except.ok.inj h').symm
  · intro h
    exact ⟨_, rfl, congrArg Except.ok h.symm⟩

/-- In every language that is built in, instants with dates have one label exactly if the dates
agree in the fields of the granularity: a label tells these fields and no finer one.  That
it tells no finer one holds of all languages. -/
theorem Composer.sameLabel_iff_agree {offset : UtcOffset} {t u : Int64} {d e : CalendarDate}
    (ht : CalendarDate.ofInstant? t offset = some d)
    (hu : CalendarDate.ofInstant? u offset = some e) (granularity : Option Granularity)
    (language : Option String) :
    (Composer.SameLabel { locales := .builtin, offset } t u granularity language ↔
      d.Agree granularity e) ∧
    ∀ locales : LocaleTable, d.Agree granularity e →
      Composer.SameLabel { locales, offset } t u granularity language := by
  constructor
  · obtain ⟨hd, he, hsame⟩ :=
      Composer.sameLabel_iff { locales := .builtin, offset } ht hu granularity language
    rw [hsame]
    exact Label.spelled_eq_iff granularity (LocaleTable.telling_builtin language) hd he
  · intro locales hagree
    obtain ⟨hd, he, hsame⟩ :=
      Composer.sameLabel_iff { locales, offset } ht hu granularity language
    rw [hsame]
    exact Label.spelled_congr hagree _ hd he

/-- One hour to the east. -/
def UtcOffset.oneHour : UtcOffset where
  seconds := 3600

/-- The nights before the 15th and before the 31st of January of the year -1, half an hour before
midnight in UTC. -/
theorem Composer.sameLabel_iff_agree_january :
    CalendarDate.ofInstant? (-62197547400000) .oneHour = some ⟨-1, 0, 15⟩ ∧
    CalendarDate.ofInstant? (-62196165000000) .oneHour = some ⟨-1, 0, 31⟩ ∧
    Composer.SameLabel { offset := .oneHour } (-62197547400000) (-62196165000000) (some .month)
      (some "fr_FR") ∧
    ¬Composer.SameLabel { offset := .oneHour } (-62197547400000) (-62196165000000) none
      (some "fr_FR") := by
  have ht : CalendarDate.ofInstant? (-62197547400000) .oneHour = some ⟨-1, 0, 15⟩ := by
    decide
  have hu : CalendarDate.ofInstant? (-62196165000000) .oneHour = some ⟨-1, 0, 31⟩ := by
    decide
  refine ⟨ht, hu, ?_, ?_⟩
  · rw [(sameLabel_iff_agree ht hu (some .month) (some "fr_FR")).1]
    exact ⟨rfl, rfl⟩
  · rw [(sameLabel_iff_agree ht hu none (some "fr_FR")).1]
    intro h
    have hday : 15 = 31 := congrArg CalendarDate.day h
    contradiction

end PlotAnnotation
