import PlotAnnotation.Buckets
import PlotAnnotation.Proofs.Calendar.Keys

/-!
# The dates of written keys

A `WrittenKey` is what a backend writes for the start of a bucket: a day of the years 0 to 9999,
alone or with a time of day, and with the time perhaps a distance from UTC of less than a day.  Its
date in UTC is found from its seconds since 1970 alone, so that a distance that leads to another
day, month or year needs no case of its own.

The bucket of a written key is that of its date, with any blanks around the key.  Keys of digits
without a distance are accepted only if they name a date.  Both are part of the main statement,
`ofKey_written`.
-/

namespace PlotAnnotation

open Calendar Text
open scoped Arithmetic

/-! ### Seconds -/

namespace DateTime

/-- A time is determined by its second since 1970 and its fraction. -/
lemma eq_of_seconds_eq {t t' : DateTime} (hseconds : t.seconds = t'.seconds)
    (hnano : t.time.nano = t'.time.nano) : t = t' := by
  obtain ⟨day, ⟨second, nano, hsecond, _⟩, _, _⟩ := t
  obtain ⟨day', ⟨second', nano', hsecond', _⟩, _, _⟩ := t'
  unfold seconds at hseconds
  simp only at hseconds hnano
  obtain rfl : day = day' := by omega
  obtain rfl : second = second' := by omega
  obtain rfl := hnano
  rfl

/-- The time of a full second. -/
def Shows (t : DateTime) (seconds : Int) : Prop :=
  t.seconds = seconds ∧ t.time.nano = 0

end DateTime

/-! ### Written keys -/

/-- A day of the years 0 to 9999. -/
structure KeyDay where
  date : CalendarDate
  exists_date : date.Exists
  year_nonneg : 0 ≤ date.year
  year_le : date.year ≤ 9999

namespace KeyDay

/-- The calendar goes on past the day on both sides. -/
lemma within (d : KeyDay) :
    firstDay + 1 ≤ d.date.dayNumber ∧ d.date.dayNumber + 1 ≤ lastDay :=
  CalendarDate.dayNumber_within d.exists_date ⟨d.year_nonneg, d.year_le⟩

/-- The day as `YYYY-MM-DD`. -/
def text (d : KeyDay) : List Char :=
  DateTime.padded 4 d.date.year.toNat ++ '-' :: DateTime.padded 2 (d.date.month0 + 1) ++
    '-' :: DateTime.padded 2 d.date.day

end KeyDay

/-- A time of day in full seconds. -/
structure KeyClock where
  hour : Nat
  minute : Nat
  second : Nat
  hour_lt : hour < 24 := by decide
  minute_lt : minute < 60 := by decide
  second_lt : second < 60 := by decide

namespace KeyClock

/-- The time as `HH:MM:SS`. -/
def text (c : KeyClock) : List Char :=
  DateTime.padded 2 c.hour ++ ':' :: DateTime.padded 2 c.minute ++ ':' :: DateTime.padded 2 c.second

/-- The seconds since midnight. -/
def seconds (c : KeyClock) : Nat :=
  c.hour * 3600 + c.minute * 60 + c.second

/-- A clock is within the day. -/
lemma seconds_lt (c : KeyClock) : c.seconds < 86400 := by
  have hhour := c.hour_lt
  have hminute := c.minute_lt
  have hsecond := c.second_lt
  unfold seconds
  omega

end KeyClock

/-- A distance from UTC of less than a day. -/
structure KeyDistance where
  hours : Nat
  minutes : Nat
  hours_lt : hours < 24 := by decide
  minutes_lt : minutes < 60 := by decide

/-- The distance as `hh:mm`. -/
def KeyDistance.text (d : KeyDistance) : List Char :=
  DateTime.padded 2 d.hours ++ ':' :: DateTime.padded 2 d.minutes

/-- UTC, or a distance from it to the east or to the west. -/
inductive KeyZone where
  | utc
  | east (distance : KeyDistance)
  | west (distance : KeyDistance)

namespace KeyZone

/-- The zone as `Z`, `+hh:mm` or `-hh:mm`. -/
def text : KeyZone → List Char
  | utc => ['Z']
  | east distance => '+' :: distance.text
  | west distance => '-' :: distance.text

/-- The minutes to the east of UTC. -/
def minutes : KeyZone → Int
  | utc => 0
  | east distance => distance.hours * 60 + distance.minutes
  | west distance => -(distance.hours * 60 + distance.minutes)

/-- An offset is less than a day. -/
lemma minutes_within (zone : KeyZone) : -1440 < zone.minutes ∧ zone.minutes < 1440 := by
  cases zone with
  | utc =>
    simp only [minutes]
    omega
  | east distance =>
    have hhours := distance.hours_lt
    have hminutes := distance.minutes_lt
    simp only [minutes]
    omega
  | west distance =>
    have hhours := distance.hours_lt
    have hminutes := distance.minutes_lt
    simp only [minutes]
    omega

end KeyZone

/-- A day, perhaps with a time of day, and then perhaps with a zone. -/
inductive WrittenKey where
  | dayOnly (day : KeyDay)
  | spaced (day : KeyDay) (clock : KeyClock)
  | joined (day : KeyDay) (clock : KeyClock)
  | zoned (day : KeyDay) (clock : KeyClock) (zone : KeyZone)

namespace WrittenKey

/-- The text of the key. -/
def text : WrittenKey → List Char
  | dayOnly day => day.text
  | spaced day clock => day.text ++ ' ' :: clock.text
  | joined day clock => day.text ++ 'T' :: clock.text
  | zoned day clock zone => day.text ++ 'T' :: clock.text ++ zone.text

/-- The day that is written. -/
def day : WrittenKey → KeyDay
  | dayOnly day => day
  | spaced day _ => day
  | joined day _ => day
  | zoned day _ _ => day

/-- The seconds since midnight that are written; a day alone is its midnight. -/
def clockSeconds : WrittenKey → Nat
  | dayOnly _ => 0
  | spaced _ clock => clock.seconds
  | joined _ clock => clock.seconds
  | zoned _ clock _ => clock.seconds

/-- The minutes to the east of UTC; a key without a zone is in UTC. -/
def east : WrittenKey → Int
  | zoned _ _ zone => zone.minutes
  | _ => 0

/-- The seconds since the start of 1970 in UTC. -/
def seconds (key : WrittenKey) : Int :=
  86400 * key.day.date.dayNumber + key.clockSeconds - 60 * key.east

/-- The clock of a key is within the day. -/
lemma clockSeconds_lt (key : WrittenKey) : key.clockSeconds < 86400 := by
  cases key with
  | dayOnly => exact Nat.succ_pos _
  | spaced _ clock => exact clock.seconds_lt
  | joined _ clock => exact clock.seconds_lt
  | zoned _ clock _ => exact clock.seconds_lt

/-- The offset of a key is less than a day, to either side. -/
lemma east_within (key : WrittenKey) : -1440 < key.east ∧ key.east < 1440 := by
  cases key with
  | zoned _ _ zone => exact zone.minutes_within
  | _ =>
    simp only [east]
    omega

/-- The day in UTC is a neighbour of the day that is written, and within the calendar. -/
lemma seconds_within (key : WrittenKey) :
    firstDay ≤ key.seconds / 86400 ∧ key.seconds / 86400 ≤ lastDay := by
  have hday := key.day.within
  have hclock := key.clockSeconds_lt
  have heast := key.east_within
  unfold seconds
  omega

/-- The second of the day is one of the day. -/
lemma second_lt (key : WrittenKey) : (key.seconds % 86400).toNat < 86400 := by
  omega

/-- The date of the key in UTC, without a fraction. -/
def dateTime (key : WrittenKey) : DateTime where
  day := key.seconds / 86400
  time := { TimeOfDay.midnight with
    second := (key.seconds % 86400).toNat
    second_lt := key.second_lt }
  first_le := key.seconds_within.1
  le_last := key.seconds_within.2

/-- The date of a key shows the second that the key names. -/
lemma shows_dateTime (key : WrittenKey) : key.dateTime.Shows key.seconds := by
  refine ⟨?_, rfl⟩
  simp only [dateTime, DateTime.seconds]
  omega

end WrittenKey

/-! ### Reading what is written -/

namespace KeyDay

/-- The digits of a day. -/
def digits (d : KeyDay) : DayDigits where
  year := DateTime.padded 4 d.date.year.toNat
  month := DateTime.padded 2 (d.date.month0 + 1)
  day := DateTime.padded 2 d.date.day
  isField_year := DateTime.isField_padded (by decide) (by
    have hle := d.year_le
    omega)
  isField_month := DateTime.isField_padded (by decide) (by
    have hmonth := ((CalendarDate.exists_iff d.date).1 d.exists_date).1
    omega)
  isField_day := DateTime.isField_padded (by decide) (by
    have hday := d.exists_date.day_le
    omega)

/-- The digits of a day are those of its date. -/
lemma date_digits (d : KeyDay) : d.digits.date = d.date := by
  have hyear : ((d.date.year.toNat : Nat) : Int) = d.date.year := Int.toNat_of_nonneg d.year_nonneg
  simp only [DayDigits.date, digits, DateTime.digitsValue_padded, hyear, Nat.add_sub_cancel]

/-- The digits of a day name that day. -/
lemma day?_digits (d : KeyDay) : d.digits.day? = some d.date.dayNumber := by
  have hmonth : digitsValue d.digits.month ≠ 0 := by
    simp only [digits, DateTime.digitsValue_padded]
    omega
  have hexists : d.digits.Exists := ⟨hmonth, d.date_digits ▸ d.exists_date⟩
  rw [d.digits.day?_eq, if_pos hexists, date_digits]

end KeyDay

namespace KeyClock

/-- The digits of a time. -/
def digits (c : KeyClock) : ClockDigits where
  hour := DateTime.padded 2 c.hour
  minute := DateTime.padded 2 c.minute
  second := DateTime.padded 2 c.second
  isField_hour := DateTime.isField_padded (by decide) (c.hour_lt.trans (by decide))
  isField_minute := DateTime.isField_padded (by decide) (c.minute_lt.trans (by decide))
  isField_second := DateTime.isField_padded (by decide) (c.second_lt.trans (by decide))

lemma numbers_digits (c : KeyClock) : c.digits.numbers = (c.hour, c.minute, c.second) := by
  simp only [ClockDigits.numbers, digits, DateTime.digitsValue_padded]

end KeyClock

namespace KeyDistance

variable (d : KeyDistance)

lemma isField_hours : IsField 2 (DateTime.padded 2 d.hours) :=
  DateTime.isField_padded (by decide) (d.hours_lt.trans (by decide))

lemma isField_minutes : IsField 2 (DateTime.padded 2 d.minutes) :=
  DateTime.isField_padded (by decide) (d.minutes_lt.trans (by decide))

/-- A distance is read back in minutes. -/
lemma zoneDistance_text : zoneDistance d.text = some (d.hours * 60 + d.minutes, []) := by
  have hin : d.hours ≤ 23 ∧ d.minutes ≤ 59 :=
    ⟨Nat.le_of_lt_succ d.hours_lt, Nat.le_of_lt_succ d.minutes_lt⟩
  have hread := zoneDistance_append d.isField_hours d.isField_minutes []
  rw [List.append_nil, DateTime.digitsValue_padded, DateTime.digitsValue_padded,
    if_pos hin] at hread
  exact hread

lemma isBlank_getLast? (front : List Char) (c : Char) (hc : (front ++ d.text).getLast? = some c) :
    isBlank c = false := by
  have htext : front ++ d.text =
      (front ++ DateTime.padded 2 d.hours ++ [':']) ++ DateTime.padded 2 d.minutes := by simp [text]
  rw [htext] at hc
  exact d.isField_minutes.isBlank_getLast? _ c hc

end KeyDistance

namespace KeyZone

/-- A zone is read back in minutes to the east. -/
lemma zone_text (z : KeyZone) : zone z.text = some (z.minutes, []) := by
  cases z with
  | utc => rfl
  | east d =>
    rw [text, zone, d.zoneDistance_text]
    rfl
  | west d =>
    rw [text, zone, d.zoneDistance_text]
    rfl

lemma isBlank_getLast? (z : KeyZone) (front : List Char) (c : Char)
    (hc : (front ++ z.text).getLast? = some c) : isBlank c = false := by
  cases z with
  | utc =>
    rw [text, List.getLast?_append_of_ne_nil _ (List.cons_ne_nil _ _)] at hc
    obtain rfl : 'Z' = c := Option.some.inj hc
    decide
  | east d =>
    rw [text, List.append_cons] at hc
    exact d.isBlank_getLast? _ c hc
  | west d =>
    rw [text, List.append_cons] at hc
    exact d.isBlank_getLast? _ c hc

end KeyZone

/-- The digits of a day are its midnight. -/
lemma KeyDay.exists_midnight (d : KeyDay) :
    ∃ t, d.digits.day?.bind (DateTime.ofDay? · .midnight) = some t ∧
      t.Shows (86400 * d.date.dayNumber) := by
  have hwithin := d.within
  have hday : firstDay ≤ d.date.dayNumber ∧ d.date.dayNumber ≤ lastDay := by omega
  rw [day?_digits, Option.bind_some, DateTime.ofDay?, dif_pos hday]
  refine ⟨_, rfl, ?_, rfl⟩
  simp only [DateTime.seconds, TimeOfDay.midnight]
  omega

/-- The digits of a day and a time are that time of the day. -/
lemma KeyDay.exists_time (d : KeyDay) (c : KeyClock) :
    ∃ t, d.digits.day?.bind (KeyFormat.assemble · c.digits.numbers 0) = some t ∧
      t.Shows (86400 * d.date.dayNumber + c.seconds) := by
  have hwithin := d.within
  have hday : firstDay ≤ d.date.dayNumber ∧ d.date.dayNumber ≤ lastDay := by omega
  have hhour := c.hour_lt
  have hminute := c.minute_lt
  have hclock : c.hour ≤ 23 ∧ c.minute ≤ 59 ∧ 0 < 10 ^ 9 := by omega
  have hsecond : c.second ≤ 59 := Nat.le_of_lt_succ c.second_lt
  rw [day?_digits, Option.bind_some, c.numbers_digits, KeyFormat.assemble, TimeOfDay.ofClock?,
    dif_pos hclock, dif_pos hsecond, Option.bind_eq_bind, Option.bind_some, DateTime.ofDay?,
    dif_pos hday]
  refine ⟨_, rfl, ?_, rfl⟩
  simp only [DateTime.seconds, KeyClock.seconds]
  omega

/-- A time that is moved shows the seconds moved by as many minutes. -/
lemma DateTime.Shows.addMinutes? {t : DateTime} {seconds minutes : Int} (h : t.Shows seconds)
    (hday : firstDay ≤ (seconds + 60 * minutes) / 86400 ∧
      (seconds + 60 * minutes) / 86400 ≤ lastDay) :
    ∃ t', t.addMinutes? minutes = some t' ∧ t'.Shows (seconds + 60 * minutes) := by
  obtain ⟨rfl, hnano⟩ := h
  rw [DateTime.addMinutes?, DateTime.ofDay?, dif_pos hday]
  refine ⟨_, rfl, ?_, hnano⟩
  simp only [DateTime.seconds]
  omega

namespace WrittenKey

/-- A written key is read as a date that shows its seconds. -/
lemma exists_ofKey?_text (key : WrittenKey) :
    ∃ t, DateTime.ofKey? key.text = some t ∧ t.Shows key.seconds := by
  cases key with
  | dayOnly day =>
    obtain ⟨t, ht, hshows⟩ := day.exists_midnight
    refine ⟨t, (DigitKey.dayOnly day.digits).ofKey?_text.trans ht, ?_⟩
    simpa [seconds, WrittenKey.day, clockSeconds, east] using hshows
  | spaced day clock =>
    obtain ⟨t, ht, hshows⟩ := day.exists_time clock
    refine ⟨t, (DigitKey.spaced day.digits clock.digits).ofKey?_text.trans ht, ?_⟩
    simpa [seconds, WrittenKey.day, clockSeconds, east] using hshows
  | joined day clock =>
    obtain ⟨t, ht, hshows⟩ := day.exists_time clock
    refine ⟨t, (DigitKey.joined day.digits clock.digits).ofKey?_text.trans ht, ?_⟩
    simpa [seconds, WrittenKey.day, clockSeconds, east] using hshows
  | zoned day clock zone =>
    obtain ⟨t, ht, hshows⟩ := day.exists_time clock
    have hseconds : (zoned day clock zone).seconds =
        86400 * day.date.dayNumber + clock.seconds + 60 * -zone.minutes := by
      simp only [seconds, WrittenKey.day, clockSeconds, east]
      omega
    have hwithin := (zoned day clock zone).seconds_within
    rw [hseconds] at hwithin ⊢
    obtain ⟨t', ht', hshows'⟩ := hshows.addMinutes? hwithin
    have hfraction : fraction zone.text = some (0, zone.text) := by cases zone <;> rfl
    have hread : KeyFormat.readZoned (zoned day clock zone).text = some t' := by
      have hzoned := KeyFormat.readZoned_text day.digits (c := 'T') (fun _ => rfl) clock.digits
        hfraction
      rw [zone.zone_text, day.day?_digits, Option.bind_some, Option.bind_some, if_pos rfl] at hzoned
      rw [day.day?_digits, Option.bind_some] at ht
      rw [ht, Option.bind_some, ht'] at hzoned
      rw [text, List.append_assoc]
      exact hzoned
    refine ⟨t', ?_, hshows'⟩
    simp only [DateTime.ofKey?, KeyFormat.all, List.findSome?_cons, KeyFormat.read, hread]

/-- A written key is read as its date. -/
lemma ofKey?_text (key : WrittenKey) : DateTime.ofKey? key.text = some key.dateTime := by
  obtain ⟨t, hread, hseconds, hnano⟩ := key.exists_ofKey?_text
  have hdate := key.shows_dateTime
  rw [hread, DateTime.eq_of_seconds_eq (hseconds.trans hdate.1.symm) (hnano.trans hdate.2.symm)]

/-- A written key is what is left when blanks around it are cut off. -/
lemma trim_text (key : WrittenKey) {before after : List Char}
    (hbefore : ∀ c ∈ before, isBlank c = true) (hafter : ∀ c ∈ after, isBlank c = true) :
    trim (before ++ key.text ++ after) = key.text := by
  cases key with
  | dayOnly day => exact (DigitKey.dayOnly day.digits).trim_text hbefore hafter
  | spaced day clock => exact (DigitKey.spaced day.digits clock.digits).trim_text hbefore hafter
  | joined day clock => exact (DigitKey.joined day.digits clock.digits).trim_text hbefore hafter
  | zoned day clock zone =>
    refine trim_append hbefore hafter ?_ (zone.isBlank_getLast? _)
    rw [text, List.append_assoc]
    exact day.digits.isBlank_head? _

end WrittenKey

/-! ### Buckets -/

namespace DateBucket

/-- A bucket is accepted with the date of its key without blanks, and its count is kept. -/
lemma ofKey_eq_ok_iff {key : String} {count : UInt64} {bucket : DateBucket} :
    ofKey key count = .ok bucket ↔
      DateTime.ofKey? (trim key.toList) = some bucket.date ∧ bucket.count = count := by
  obtain ⟨date, count'⟩ := bucket
  cases hkey : DateTime.ofKey? (trim key.toList) with
  | none => simp [ofKey, hkey]
  | some date' =>
    simp only [ofKey, hkey, Except.ok.injEq, mk.injEq, Option.some.injEq]
    exact and_congr_right fun _ => eq_comm

variable {before after : List Char}

/-- The bucket of a written key is that of its date in UTC. -/
lemma ofKey_writtenKey (hbefore : ∀ c ∈ before, isBlank c = true)
    (hafter : ∀ c ∈ after, isBlank c = true) (key : WrittenKey) (count : UInt64) :
    ofKey (String.ofList (before ++ key.text ++ after)) count = .ok ⟨key.dateTime, count⟩ := by
  rw [ofKey_eq_ok_iff, String.toList_ofList, key.trim_text hbefore hafter, key.ofKey?_text]
  exact ⟨rfl, rfl⟩

/-- A key in digits is accepted exactly if the digits name a date. -/
lemma exists_ofKey_digitKey_iff (hbefore : ∀ c ∈ before, isBlank c = true)
    (hafter : ∀ c ∈ after, isBlank c = true) (key : DigitKey) (count : UInt64) :
    (∃ bucket, ofKey (String.ofList (before ++ key.text ++ after)) count = .ok bucket) ↔
      key.Exists := by
  simp only [ofKey_eq_ok_iff, String.toList_ofList, key.trim_text hbefore hafter, key.ofKey?_text]
  rw [← key.isSome_date?_iff, Option.isSome_iff_exists]
  constructor
  · rintro ⟨bucket, hdate, -⟩
    exact ⟨bucket.date, hdate⟩
  · rintro ⟨date, hdate⟩
    exact ⟨⟨date, count⟩, hdate, rfl⟩

/-- The timestamp of a date without a fraction is its second since 1970. -/
lemma toInt_timestamp (key : WrittenKey) (count : UInt64) :
    (timestamp ⟨key.dateTime, count⟩).toInt = 1000 * key.seconds := by
  obtain ⟨hseconds, hnano⟩ := key.shows_dateTime
  rw [timestamp, DateTime.toInt_timestamp, DateTime.millis, hseconds, hnano]
  omega

/-- Blanks around it aside, a written key gives the bucket of its date in UTC, and keys of one
instant give one bucket.  The date is the one that is written unless a distance from UTC moves it;
its timestamp is that of its day and its time.  A key in digits is accepted exactly if there is its
day in the calendar and its time on the clock. -/
theorem ofKey_written (hbefore : ∀ c ∈ before, isBlank c = true)
    (hafter : ∀ c ∈ after, isBlank c = true) (count : UInt64) :
    (∀ key : WrittenKey,
      ofKey (String.ofList (before ++ key.text ++ after)) count = .ok ⟨key.dateTime, count⟩ ∧
      (key.east = 0 → CalendarDate.ofDayNumber key.dateTime.day = key.day.date ∧
        key.dateTime.time.second = key.clockSeconds) ∧
      (timestamp ⟨key.dateTime, count⟩).toInt = 1000 * key.seconds ∧
      (timestamp ⟨key.dateTime, count⟩).toInt =
        86400000 * key.dateTime.day + 1000 * key.dateTime.time.second) ∧
    (∀ key key' : WrittenKey, key.seconds = key'.seconds →
      ofKey (String.ofList (before ++ key.text ++ after)) count =
        ofKey (String.ofList key'.text) count) ∧
    ∀ key : DigitKey,
      (∃ bucket, ofKey (String.ofList (before ++ key.text ++ after)) count = .ok bucket) ↔
        key.Exists := by
  have hnone : ∀ c ∈ ([] : List Char), isBlank c = true := by simp
  refine ⟨fun key => ⟨ofKey_writtenKey hbefore hafter key count, ?_, toInt_timestamp key count, ?_⟩,
    ?_, fun key => exists_ofKey_digitKey_iff hbefore hafter key count⟩
  · intro heast
    have hclock := key.clockSeconds_lt
    have hseconds : key.seconds = 86400 * key.day.date.dayNumber + key.clockSeconds := by
      rw [WrittenKey.seconds, heast]
      omega
    have hday : key.dateTime.day = key.day.date.dayNumber := by
      simp only [WrittenKey.dateTime]
      omega
    have hsecond : key.dateTime.time.second = key.clockSeconds := by
      simp only [WrittenKey.dateTime]
      omega
    rw [hday, CalendarDate.ofDayNumber_dayNumber key.day.exists_date]
    exact ⟨rfl, hsecond⟩
  · rw [toInt_timestamp, ← key.shows_dateTime.1, DateTime.seconds]
    omega
  · intro key key' hseconds
    have hdate : key.dateTime = key'.dateTime := by
      refine DateTime.eq_of_seconds_eq ?_ rfl
      rw [key.shows_dateTime.1, key'.shows_dateTime.1, hseconds]
    have hread := ofKey_writtenKey hnone hnone key' count
    rw [List.nil_append, List.append_nil] at hread
    rw [ofKey_writtenKey hbefore hafter key count, hread, hdate]

/-- The last second of the year 9999, written 23 hours and 59 minutes to the west. -/
def lastSecond : WrittenKey :=
  .zoned ⟨⟨9999, 11, 31⟩, by decide, by decide, by decide⟩
    { hour := 23, minute := 59, second := 59 } (.west { hours := 23, minutes := 59 })

/-- The 29th of February of a year in which there is none. -/
def leapDay : DigitKey :=
  .dayOnly ⟨['2', '0', '2', '3'], ['0', '2'], ['2', '9'], by decide, by decide, by decide⟩

/-- In UTC the last second of the year 9999 there falls on the first of January 10000, and the 29th
of February 2023 is refused. -/
theorem ofKey_written_lastSecond :
    (∀ c ∈ [' '], isBlank c = true) ∧ (∀ c ∈ ['\n'], isBlank c = true) ∧
      String.ofList ([' '] ++ lastSecond.text ++ ['\n']) = " 9999-12-31T23:59:59-23:59\n" ∧
      ofKey " 9999-12-31T23:59:59-23:59\n" 3 = .ok ⟨lastSecond.dateTime, 3⟩ ∧
      CalendarDate.ofDayNumber lastSecond.dateTime.day = ⟨10000, 0, 1⟩ ∧
      lastSecond.dateTime.time.second = 23 * 3600 + 58 * 60 + 59 ∧
      ¬∃ bucket, ofKey " 2023-02-29\n" 3 = .ok bucket := by
  have hblank : ∀ c ∈ [' '], isBlank c = true := List.forall_mem_singleton.2 rfl
  have hnewline : ∀ c ∈ ['\n'], isBlank c = true := List.forall_mem_singleton.2 rfl
  obtain ⟨hwritten, -, hdigits⟩ := ofKey_written hblank hnewline 3
  have htext : String.ofList ([' '] ++ lastSecond.text ++ ['\n']) =
      " 9999-12-31T23:59:59-23:59\n" := by decide
  have hleap : String.ofList ([' '] ++ leapDay.text ++ ['\n']) = " 2023-02-29\n" := by decide
  refine ⟨hblank, hnewline, htext, htext ▸ (hwritten lastSecond).1, by decide, by decide, ?_⟩
  rw [← hleap, hdigits leapDay]
  decide

end DateBucket

end PlotAnnotation
