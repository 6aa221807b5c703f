import PlotAnnotation.Proofs.Calendar.Forms
import PlotAnnotation.Proofs.Calendar.Instants
import PlotAnnotation.Proofs.Json.Record

/-!
# Dates over the wire

Between a date and the text it has on the wire stand the parts of the text, a `WireDate`, and
`WireDate.Writes` says which parts write which date.  The writer puts such parts together
(`writes_wireDate`), and the reader finds the date in them (`ofWire?_of_writes`).

One thing is lost on the way.  A leap second is written as second 60 of its minute, so one that
follows another second than the last of a minute is written as the full second after it.  A clock
does not show such times (`TimeOfDay.OnClock`), and exactly those it shows come back
(`ofWire?_toWire_iff`).  Every key is read off a clock, in each of its forms, and a distance from
UTC in full minutes leaves the seconds within the minute alone (`onClock_of_ofKey?`).  The bucket of
a key hence comes back, whatever its year and its fraction.
-/

namespace PlotAnnotation

open Calendar Text Json
open scoped Arithmetic

/-! ### Times that a clock shows -/

namespace TimeOfDay

/-- A clock shows the time: a leap second is at the end of a minute. -/
def OnClock (time : TimeOfDay) : Prop :=
  10 ^ 9 ≤ time.nano → time.second % 60 = 59

/-- Hour, minute and second; a leap second is one more. -/
def numbers (time : TimeOfDay) : Nat × Nat × Nat :=
  (time.second / 3600, time.second / 60 % 60, time.second % 60 + time.nano / 10 ^ 9)

variable {time : TimeOfDay}

lemma onClock_midnight : midnight.OnClock :=
  fun hleap => absurd hleap (by decide)

/-- A clock shows the times that are read off it. -/
lemma onClock_of_ofClock? {hour minute second nano : Nat}
    (h : ofClock? hour minute second nano = some time) : time.OnClock := by
  simp only [ofClock?, Option.dite_none_right_eq_some] at h
  obtain ⟨hclock, h⟩ := h
  unfold OnClock
  split at h
  · obtain rfl := Option.some.inj h
    simp only
    omega
  · obtain ⟨-, h⟩ := Option.ite_none_right_eq_some.1 h
    obtain rfl := Option.some.inj h
    simp only
    omega

/-- A time that a clock shows is read off it again. -/
lemma ofClock?_numbers (h : time.OnClock) :
    ofClock? time.numbers.1 time.numbers.2.1 time.numbers.2.2 (time.nano % 10 ^ 9) = some time := by
  obtain ⟨second, nano, hsecond, hnano⟩ := time
  simp only [OnClock, numbers] at h ⊢
  have hclock : second / 3600 ≤ 23 ∧ second / 60 % 60 ≤ 59 ∧ nano % 10 ^ 9 < 10 ^ 9 := by omega
  rw [ofClock?, dif_pos hclock]
  by_cases hleap : 10 ^ 9 ≤ nano
  · -- the leap second of a minute counts as second 60, which is read as second 59 again
    have hlast : ¬second % 60 + nano / 10 ^ 9 ≤ 59 := by omega
    have hsixty : second % 60 + nano / 10 ^ 9 = 60 := by omega
    rw [dif_neg hlast, if_pos hsixty]
    congr 2 <;> omega
  · have hwithin : second % 60 + nano / 10 ^ 9 ≤ 59 := by omega
    rw [dif_pos hwithin]
    congr 2 <;> omega

end TimeOfDay

namespace DateTime

variable {t : DateTime}

/-- Full minutes leave the second within the minute alone. -/
lemma onClock_of_addMinutes? {t' : DateTime} {minutes : Int} (ht : t.time.OnClock)
    (h : t.addMinutes? minutes = some t') : t'.time.OnClock := by
  obtain ⟨-, htime⟩ := ofDay?_eq_some_iff.1 h
  rw [← htime]
  unfold TimeOfDay.OnClock at ht ⊢
  unfold seconds
  simp only
  omega

end DateTime

namespace KeyFormat

variable {cs : List Char} {t : DateTime}

/-- A time put together from a day and a clock to the second is on the clock. -/
lemma onClock_of_assemble {day : Int} {clock : Nat × Nat × Nat} {nano : Nat}
    (h : assemble day clock nano = some t) : t.time.OnClock := by
  obtain ⟨time, htime, hday⟩ := Option.bind_eq_some_iff.1 h
  obtain ⟨-, rfl⟩ := DateTime.ofDay?_eq_some_iff.1 hday
  exact TimeOfDay.onClock_of_ofClock? htime

/-- A date that a clock shows is put together again from what the clock shows. -/
lemma assemble_numbers (h : t.time.OnClock) :
    assemble t.day t.time.numbers (t.time.nano % 10 ^ 9) = some t := by
  rw [assemble, TimeOfDay.ofClock?_numbers h]
  exact DateTime.ofDay?_eq_some_iff.2 ⟨rfl, rfl⟩

/-- In every form a key is read off a clock. -/
lemma onClock_of_read {form : KeyFormat} (h : form.read cs = some t) : t.time.OnClock := by
  cases form with
  | zoned =>
    obtain ⟨_, _, _, _, _, _, _, _, _, -, -, -, -, -, hthere, hmoved⟩ := exists_of_readZoned h
    exact DateTime.onClock_of_addMinutes? (onClock_of_assemble hthere) hmoved
  | spaced =>
    obtain ⟨_, _, _, -, -, hdate⟩ := exists_of_readSpaced h
    exact onClock_of_assemble hdate
  | joined =>
    obtain ⟨_, _, _, -, -, hdate⟩ := exists_of_readJoined h
    exact onClock_of_assemble hdate
  | dayOnly =>
    obtain ⟨_, -, hdate⟩ := exists_of_readDay h
    rw [← (DateTime.ofDay?_eq_some_iff.1 hdate).2]
    exact TimeOfDay.onClock_midnight

end KeyFormat

namespace DateTime

variable {t : DateTime}

/-- A clock shows the date of a key. -/
lemma onClock_of_ofKey? {cs : List Char} (h : ofKey? cs = some t) : t.time.OnClock := by
  obtain ⟨form, -, hread⟩ := List.exists_of_findSome?_eq_some h
  exact KeyFormat.onClock_of_read hread

/-- A clock shows the date that is read from the wire. -/
lemma onClock_of_ofWire? {s : String} (h : ofWire? s = some t) : t.time.OnClock := by
  simp only [ofWire?, Option.bind_eq_bind, Option.bind_eq_some_iff, Prod.exists] at h
  obtain ⟨_, _, -, _, -, _, _, _, _, -, _, _, -, h⟩ := h
  exact KeyFormat.onClock_of_assemble (Option.ite_none_right_eq_some.1 h).2

end DateTime

/-! ### What is written -/

/-- Digits that are filled up with zeros to a width, and have no more zeros in front than that. -/
structure IsFilled (width : Nat) (cs : List Char) : Prop where
  isDigits : IsDigits cs
  width_le : width ≤ cs.length
  head : width < cs.length → cs.head? ≠ some '0'

/-- How a year is written: four digits for the years 0 to 9999, otherwise a sign and at least
four. -/
inductive WritesYear : Int → List Char → Prop where
  | unsigned {ds : List Char} (h : IsField 4 ds) : WritesYear (digitsValue ds) ds
  | later {ds : List Char} (h : IsFilled 4 ds) (hlarge : 9999 < digitsValue ds) :
    WritesYear (digitsValue ds) ('+' :: ds)
  | negative {ds : List Char} (h : IsFilled 4 ds) (hpos : 0 < digitsValue ds) :
    WritesYear (-(digitsValue ds : Int)) ('-' :: ds)

/-- How a fraction in nanoseconds is written: not at all if there is none, otherwise with one, two
or three groups of three places, of which the last is not zero. -/
inductive WritesFraction : Nat → List Char → Prop where
  | full : WritesFraction 0 []
  | places {groups : Nat} {ds : List Char} (hgroups : groups = 1 ∨ groups = 2 ∨ groups = 3)
    (h : IsField (3 * groups) ds) (hlast : digitsValue ds % 10 ^ 3 ≠ 0) :
    WritesFraction (digitsValue ds * 10 ^ (9 - 3 * groups)) ('.' :: ds)

/-- The parts of the text of a date. -/
structure WireDate where
  year : List Char
  month : List Char
  day : List Char
  clock : ClockDigits
  fraction : List Char
  isField_month : IsField 2 month
  isField_day : IsField 2 day

namespace WireDate

/-- The text, `Y-MM-DDTHH:MM:SS` and the fraction. -/
def text (w : WireDate) : List Char :=
  w.year ++ '-' :: w.month ++ '-' :: w.day ++ 'T' :: (w.clock.text ++ w.fraction)

/-- The parts write a date: year, month and day are those of its day, and hour, minute and second
are those of its time, where a leap second counts on to 60. -/
structure Writes (w : WireDate) (t : DateTime) : Prop where
  year : WritesYear (CalendarDate.ofDayNumber t.day).year w.year
  month : digitsValue w.month = (CalendarDate.ofDayNumber t.day).month0 + 1
  day : digitsValue w.day = (CalendarDate.ofDayNumber t.day).day
  clock : w.clock.numbers = t.time.numbers
  fraction : WritesFraction (t.time.nano % 10 ^ 9) w.fraction

lemma text_eq (w : WireDate) :
    w.text =
      w.year ++ '-' :: (w.month ++ '-' :: (w.day ++ 'T' :: (w.clock.text ++ w.fraction))) := by
  simp only [text, List.append_assoc, List.cons_append]

end WireDate

namespace DateTime

/-- A number with zeros up to a width fills the width. -/
lemma isFilled_padded {width : Nat} (hwidth : 0 < width) (n : Nat) :
    IsFilled width (padded width n) where
  isDigits := isDigits_padded width n
  width_le := (Nat.le_max_left _ _).trans_eq (length_padded width n).symm
  head := by
    intro hlong
    rw [length_padded] at hlong
    have hnone : width - (Nat.toDigits 10 n).length = 0 := by omega
    have hpos : 0 < n := by
      by_contra hzero
      obtain rfl : n = 0 := by omega
      have hone : (Nat.toDigits 10 0).length = 1 := rfl
      omega
    rw [padded, hnone, List.replicate_zero, List.nil_append]
    exact head?_toDigits_ne hpos

/-- The text of a year writes the year. -/
lemma writesYear_yearText (year : Int) : WritesYear year (yearText year) := by
  unfold yearText
  split
  · next hyear =>
    have hlt : year.toNat < 10 ^ 4 := by omega
    have hwrites := WritesYear.unsigned (isField_padded (by decide) hlt)
    rwa [digitsValue_padded, Int.toNat_of_nonneg hyear.1] at hwrites
  · next hyear =>
    have hfilled : IsFilled 4 (padded 4 year.natAbs) := isFilled_padded (by decide) _
    have hvalue := digitsValue_padded 4 year.natAbs
    split
    · next hneg =>
      have hwrites := WritesYear.negative hfilled (by omega)
      rwa [hvalue, show -(year.natAbs : Int) = year by omega] at hwrites
    · next hpos =>
      have hwrites := WritesYear.later hfilled (by omega)
      rwa [hvalue, show (year.natAbs : Int) = year by omega] at hwrites

/-- Groups of three places hold a fraction if nothing is left below them, and are needed if the last
of them is not zero. -/
lemma writesFraction_padded {groups nano : Nat} (hgroups : groups = 1 ∨ groups = 2 ∨ groups = 3)
    (hnano : nano < 10 ^ 9) (hrest : nano % 10 ^ (9 - 3 * groups) = 0)
    (hlast : nano / 10 ^ (9 - 3 * groups) % 10 ^ 3 ≠ 0) :
    WritesFraction nano ('.' :: padded (3 * groups) (nano / 10 ^ (9 - 3 * groups))) := by
  have hwidth : 10 ^ (9 - 3 * groups) * 10 ^ (3 * groups) = 10 ^ 9 := by
    rw [← Nat.pow_add]
    congr 1
    omega
  have hlt : nano / 10 ^ (9 - 3 * groups) < 10 ^ (3 * groups) :=
    Nat.div_lt_of_lt_mul (hwidth ▸ hnano)
  have hwrites := WritesFraction.places hgroups (isField_padded (by omega) hlt)
    (by rwa [digitsValue_padded])
  rwa [digitsValue_padded, Nat.div_mul_cancel (Nat.dvd_of_mod_eq_zero hrest)] at hwrites

/-- The text of a fraction writes the nanoseconds. -/
lemma writesFraction_fractionText {nano : Nat} (hnano : nano < 10 ^ 9) :
    WritesFraction nano (fractionText nano) := by
  unfold fractionText
  split
  · next hzero =>
    rw [hzero]
    exact .full
  split
  · next hmillis =>
    have hlast : nano / 10 ^ 6 % 10 ^ 3 ≠ 0 := by omega
    exact writesFraction_padded (.inl rfl) hnano hmillis hlast
  split
  · next hmicros =>
    have hlast : nano / 10 ^ 3 % 10 ^ 3 ≠ 0 := by omega
    exact writesFraction_padded (.inr (.inl rfl)) hnano hmicros hlast
  · next hlast =>
    have hwrites := writesFraction_padded (.inr (.inr rfl)) hnano (Nat.mod_one nano)
    rw [Nat.pow_zero, Nat.div_one] at hwrites
    exact hwrites hlast

/-- The parts that a date is written with. -/
def wireDate (t : DateTime) : WireDate where
  year := yearText (CalendarDate.ofDayNumber t.day).year
  month := padded 2 ((CalendarDate.ofDayNumber t.day).month0 + 1)
  day := padded 2 (CalendarDate.ofDayNumber t.day).day
  clock :=
    { hour := padded 2 t.time.numbers.1
      minute := padded 2 t.time.numbers.2.1
      second := padded 2 t.time.numbers.2.2
      isField_hour := isField_padded (by decide) (by
        have hsecond := t.time.second_lt
        simp only [TimeOfDay.numbers]
        omega)
      isField_minute := isField_padded (by decide) (by
        simp only [TimeOfDay.numbers]
        omega)
      isField_second := isField_padded (by decide) (by
        have hnano := t.time.nano_lt
        simp only [TimeOfDay.numbers]
        omega) }
  fraction := fractionText (t.time.nano % 10 ^ 9)
  isField_month := isField_padded (by decide) (by
    have hmonth := ((CalendarDate.exists_iff _).1 (CalendarDate.exists_ofDayNumber t.day)).1
    omega)
  isField_day := isField_padded (by decide) (by
    have hday := (CalendarDate.exists_ofDayNumber t.day).day_le
    omega)

variable (t : DateTime)

lemma toWire_eq_text : t.toWire = String.ofList t.wireDate.text := rfl

/-- Every date is written in the wire form. -/
lemma writes_wireDate : t.wireDate.Writes t where
  year := writesYear_yearText _
  month := digitsValue_padded 2 _
  day := digitsValue_padded 2 _
  clock := by simp only [ClockDigits.numbers, wireDate, digitsValue_padded]
  fraction := writesFraction_fractionText (Nat.mod_lt _ (by decide))

end DateTime

/-! ### What is read -/

namespace Calendar

/-- A year is read up to the hyphen after it. -/
lemma freeYear_of_writesYear {year : Int} {cs : List Char} (h : WritesYear year cs)
    (rest : List Char) : freeYear (cs ++ '-' :: rest) = some (year, '-' :: rest) := by
  have hhyphen : ∀ c, ('-' :: rest).head? = some c → c.isDigit = false := by
    rintro _ ⟨⟩
    decide
  cases h with
  | unsigned h => exact freeYear_append h _
  | later h _ | negative h _ =>
    have hread := wholeNumber_append h.isDigits hhyphen
    rw [freeYear, List.cons_append, trimStart_cons_eq_self (by decide)]
    simp only [hread, Option.map_some]

/-- A fraction is read to the end of the text. -/
lemma fraction_of_writesFraction {nano : Nat} {cs : List Char} (h : WritesFraction nano cs) :
    fraction cs = some (nano, []) := by
  cases h with
  | full => rfl
  | @places groups ds hgroups h hlast =>
    have hlength : ds.length ≤ 9 := by
      rw [h.1]
      omega
    have hne : ds ≠ [] := by
      rintro rfl
      exact hlast rfl
    have htake : ds.takeWhile Char.isDigit = ds := List.takeWhile_eq_self_iff.2 h.2
    have hdrop : ds.dropWhile Char.isDigit = [] := List.dropWhile_eq_nil_iff.2 h.2
    simp only [fraction, htake, hdrop, if_neg hne, List.take_of_length_le hlength, h.1, digitsValue]

/-- Year, month and day of a date are read as its day. -/
lemma dayOf?_ofDayNumber (t : DateTime) :
    dayOf? (CalendarDate.ofDayNumber t.day).year ((CalendarDate.ofDayNumber t.day).month0 + 1)
      (CalendarDate.ofDayNumber t.day).day = some t.day := by
  have hdate := DateTime.ofDate?_ofDayNumber { t with time := .midnight }
  rw [dayOf?, if_neg (Nat.succ_ne_zero _), Nat.add_sub_cancel, hdate]
  rfl

end Calendar

namespace DateTime

variable {t : DateTime}

/-- A date that a clock shows is read from the parts that write it. -/
lemma ofWire?_of_writes {w : WireDate} (hwrites : w.Writes t) (hclock : t.time.OnClock) :
    ofWire? (String.ofList w.text) = some t := by
  have hday : freeDay true w.text = some (t.day, 'T' :: (w.clock.text ++ w.fraction)) := by
    rw [w.text_eq, freeDay_of_freeYear true w.isField_month w.isField_day
      (freeYear_of_writesYear hwrites.year _), hwrites.month, hwrites.day, dayOf?_ofDayNumber]
    rfl
  have hmark : freeMark true 'T' ('T' :: (w.clock.text ++ w.fraction)) =
      some (w.clock.text ++ w.fraction) := freeMark_cons true (by decide) _
  simp only [ofWire?, String.toList_ofList, hday, hmark, freeClock_text, hwrites.clock,
    fraction_of_writesFraction hwrites.fraction, Option.bind_eq_bind, Option.bind_some]
  exact KeyFormat.assemble_numbers hclock

/-- A date comes back from the wire exactly if a clock shows it. -/
theorem ofWire?_toWire_iff : ofWire? t.toWire = some t ↔ t.time.OnClock := by
  refine ⟨onClock_of_ofWire?, fun hclock => ?_⟩
  rw [toWire_eq_text]
  exact ofWire?_of_writes t.writes_wireDate hclock

/-- A leap second after second 58 comes back as second 59. -/
example : ofWire? (toWire { day := 0, time := { second := 58, nano := 1000000000 } }) =
    some { day := 0, time := { second := 59, nano := 0 } } := by
  decide +kernel

end DateTime

/-! ### Buckets -/

namespace DateBucket

variable (b : DateBucket)

/-- The entries that a bucket is written as. -/
def entries : List (String × Value) :=
  [("date", .string b.date.toWire), ("count", .ofUInt64 b.count)]

lemma toValue_eq_entries : Wire.toValue b = .object b.entries := rfl

lemma nodup_keys_entries : (Keyed.keys b.entries).Nodup := by
  simp [entries, Keyed.keys]

/-- The wire form is an object without values inside of its values. -/
lemma depth_toValue : (Wire.toValue b).depth = 1 := rfl

/-- A bucket comes back from its wire form if its date does. -/
lemma ofValue?_toValue {b : DateBucket} (h : b.date.time.OnClock) :
    ofValue? (Wire.toValue b) = some b := by
  have hdate : (Slot.ofMember (Keyed.find? "date" b.entries)).required
      (fun t => t.toText?.bind DateTime.ofWire?) = some b.date := by
    have hfind : Keyed.find? "date" b.entries = some (.string b.date.toWire) := rfl
    simp only [hfind, Slot.ofMember, Slot.required, Tree.ofValue, Tree.toText?, Option.bind_some]
    exact DateTime.ofWire?_toWire_iff.2 h
  have hcount : (Slot.ofMember (Keyed.find? "count" b.entries)).required Tree.toUInt64? =
      some b.count := by
    have hfind : Keyed.find? "count" b.entries = some (.ofUInt64 b.count) := rfl
    rw [hfind, Slot.ofMember, Slot.required, Tree.toUInt64?_ofUInt64]
  rw [ofValue?, toValue_eq_entries]
  simp only [Wire.ofTree?]
  rw [fields?_ofValue _ b.nodup_keys_entries]
  simp only [Option.bind_eq_bind, Option.bind_some, hdate, hcount]
  rfl

/-- **The buckets of keys come back from the wire.**  The wire form of the bucket of a key has the
text of its date and the count that was given.  From it, and from its text, the same bucket is read,
so the instant of the bucket stays what it was. -/
theorem ofKey_wire_roundTrip {key : String} {count : UInt64} {bucket : DateBucket}
    (h : ofKey key count = .ok bucket) :
    (∃ w : WireDate, w.Writes bucket.date ∧ Wire.toValue bucket =
      .object [("date", .string (String.ofList w.text)), ("count", .ofUInt64 count)]) ∧
    ofValue? (Wire.toValue bucket) = some bucket ∧
    ofString? DateBucket (toText bucket) = some bucket ∧
    (ofString? DateBucket (toText bucket)).map timestamp = some bucket.timestamp := by
  obtain ⟨hdate, rfl⟩ := ofKey_eq_ok_iff.1 h
  have hvalue := ofValue?_toValue (DateTime.onClock_of_ofKey? hdate)
  have htext : ofString? DateBucket (toText bucket) = some bucket := by
    rw [ofString?_toText (by rw [depth_toValue]; decide), hvalue]
  refine ⟨⟨bucket.date.wireDate, bucket.date.writes_wireDate, rfl⟩, hvalue, htext, ?_⟩
  rw [htext, Option.map_some]

/-- A leap second with nine places that its distance from UTC moves to the year 10000. -/
def lateLeap : DateBucket where
  date := { day := 2932897, time := { second := 86339, nano := 1123456789 } }
  count := 18446744073709551615

/-- A leap second of the year before the year 0. -/
def earlyLeap : DateBucket where
  date := { day := -719860, time := { second := 14759, nano := 1000000000 } }
  count := 0

/-- Two leap seconds come back: one beyond the years of four digits, and one before the first year.
-/
theorem ofKey_wire_roundTrip_leapSeconds :
    ofKey "9999-12-31T23:59:60.123456789-23:59" 18446744073709551615 = .ok lateLeap ∧
    lateLeap.date.toWire = "+10000-01-01T23:58:60.123456789" ∧
    ofValue? (Wire.toValue lateLeap) = some lateLeap ∧
    ofString? DateBucket (toText lateLeap) = some lateLeap ∧
    ofKey " -1-2-3 4:5:60" 0 = .ok earlyLeap ∧
    earlyLeap.date.toWire = "-0001-02-03T04:05:60" ∧
    ofValue? (Wire.toValue earlyLeap) = some earlyLeap ∧
    ofString? DateBucket (toText earlyLeap) = some earlyLeap ∧
    (ofString? DateBucket (toText earlyLeap)).map timestamp = some (-62195889240000) := by
  have hlate : ofKey "9999-12-31T23:59:60.123456789-23:59" 18446744073709551615 =
      .ok lateLeap := by decide +kernel
  have hearly : ofKey " -1-2-3 4:5:60" 0 = .ok earlyLeap := by decide +kernel
  obtain ⟨-, hvalue, htext, -⟩ := ofKey_wire_roundTrip hlate
  obtain ⟨-, hvalue', htext', htimestamp'⟩ := ofKey_wire_roundTrip hearly
  exact ⟨hlate, by decide +kernel, hvalue, htext, hearly, by decide +kernel, hvalue', htext',
    htimestamp'⟩

end DateBucket

end PlotAnnotation
