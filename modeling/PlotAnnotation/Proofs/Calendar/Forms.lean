import Mathlib.Data.List.DropRight
import PlotAnnotation.Proofs.Calendar.Written

/-!
# No key has two forms

The strict form takes its day and its time in digits of full width, and the free manner takes such
digits as well.  Every form therefore starts with a day in the free manner, and it differs from the
others in how it goes on: not at all, with `T` and a time, with a time after blanks, or in the
strict form with a time and something more.  One lemma for each form says what was found in a text
that it reads (`exists_of_readZoned` and so on).  What is left after the day hence tells the form
(`KeyFormat.after`), and a text has one form at most (`KeyFormat.eq_of_read`).

The forms may be tried in any order (`DateBucket.ofKey_unambiguous`).
-/

namespace PlotAnnotation

open Calendar Text

/-! ### Digits of full width -/

namespace Calendar

variable {cs rest : List Char}

/-- A number of a fixed width was read from a field of that width. -/
lemma exists_of_fixedNumber {width n : ℕ} (h : fixedNumber width cs = some (n, rest)) :
    ∃ ds, IsField width ds ∧ digitsValue ds = n ∧ cs = ds ++ rest := by
  rw [fixedNumber, Option.ite_none_right_eq_some, Option.some.injEq, Prod.mk.injEq] at h
  obtain ⟨⟨hlength, hdigits⟩, hvalue, rfl⟩ := h
  exact ⟨cs.take width, ⟨hlength, List.all_eq_true.1 hdigits⟩, hvalue,
    (List.take_append_drop _ _).symm⟩

/-- A mark was read from where it stands. -/
lemma exists_of_mark {c : Char} (h : mark c cs = some rest) : cs = c :: rest := by
  cases cs with
  | nil => contradiction
  | cons d ds =>
    rw [mark, Option.ite_none_right_eq_some, Option.some.injEq] at h
    obtain ⟨rfl, rfl⟩ := h
    rfl

/-- What is read as a day in the strict manner is a day in digits. -/
lemma exists_of_fixedDay {n : ℤ} (h : fixedDay cs = some (n, rest)) :
    ∃ d : DayDigits, d.day? = some n ∧ cs = d.text ++ rest := by
  simp only [fixedDay, Option.bind_eq_bind, Option.bind_eq_some_iff, Prod.exists] at h
  obtain ⟨_, _, hyear, _, hhyphen, _, _, hmonth, _, hhyphen', _, _, hday, m, hexists, heq⟩ := h
  obtain ⟨year, hyearField, rfl, rfl⟩ := exists_of_fixedNumber hyear
  obtain rfl := exists_of_mark hhyphen
  obtain ⟨month, hmonthField, rfl, rfl⟩ := exists_of_fixedNumber hmonth
  obtain rfl := exists_of_mark hhyphen'
  obtain ⟨day, hdayField, rfl, rfl⟩ := exists_of_fixedNumber hday
  obtain ⟨rfl, rfl⟩ := Prod.mk.inj (Option.some.inj heq)
  let d : DayDigits := ⟨year, month, day, hyearField, hmonthField, hdayField⟩
  exact ⟨d, hexists, (d.text_append _).symm⟩

/-- What is read as a time in the strict manner is a time in digits. -/
lemma exists_of_fixedClock {numbers : ℕ × ℕ × ℕ} (h : fixedClock cs = some (numbers, rest)) :
    ∃ c : ClockDigits, cs = c.text ++ rest := by
  simp only [fixedClock, Option.bind_eq_bind, Option.bind_eq_some_iff, Prod.exists] at h
  obtain ⟨_, _, hhour, _, hcolon, _, _, hminute, _, hcolon', _, _, hsecond, heq⟩ := h
  obtain ⟨hour, hhourField, rfl, rfl⟩ := exists_of_fixedNumber hhour
  obtain rfl := exists_of_mark hcolon
  obtain ⟨minute, hminuteField, rfl, rfl⟩ := exists_of_fixedNumber hminute
  obtain rfl := exists_of_mark hcolon'
  obtain ⟨second, hsecondField, rfl, rfl⟩ := exists_of_fixedNumber hsecond
  obtain ⟨-, rfl⟩ := Prod.mk.inj (Option.some.inj heq)
  let c : ClockDigits := ⟨hour, minute, second, hhourField, hminuteField, hsecondField⟩
  exact ⟨c, (c.text_append _).symm⟩

/-- Blanks before a time in the free manner make no difference. -/
lemma freeClock_trimStart (gaps : Bool) (cs : List Char) :
    freeClock gaps (trimStart cs) = freeClock gaps cs := by
  have htrim : trimStart (trimStart cs) = trimStart cs := List.dropWhile_idempotent isBlank cs
  simp only [freeClock, freeNumber, htrim]

/-- No clock begins with a mark. -/
lemma freeClock_cons_eq_none (gaps : Bool) {c : Char} (hblank : isBlank c = false)
    (hdigit : c.isDigit = false) (cs : List Char) : freeClock gaps (c :: cs) = none := by
  rw [freeClock, freeNumber_cons_eq_none hblank hdigit]
  rfl

end Calendar

/-! ### What follows the day -/

/-- A text that is a time in the free manner and nothing more. -/
def Calendar.IsFreeClock (cs : List Char) : Prop :=
  (freeClock false cs).map Prod.snd = some []

instance (cs : List Char) : Decidable (IsFreeClock cs) :=
  inferInstanceAs (Decidable (_ = _))

namespace KeyFormat

/-- The only form that a text may have, from what is left after its day. -/
def after : List Char → KeyFormat
  | [] => dayOnly
  | 'T' :: cs => if IsFreeClock cs then joined else zoned
  | cs => if IsFreeClock cs then spaced else zoned

variable {cs : List Char} {date : DateTime}

/-- Where no divider follows the day, the form is told by whether a clock does. -/
lemma after_cons {c : Char} (hc : c ≠ 'T') (cs : List Char) :
    after (c :: cs) = if IsFreeClock (c :: cs) then spaced else zoned := by
  unfold after
  split
  · contradiction
  · next heq => exact absurd (List.cons.inj heq).1 hc
  · rfl

/-- After day and time the strict form wants a distance from UTC, whatever divides them. -/
lemma after_divider {rest rest' : List Char} (hdivider : divider rest = some rest')
    (hclock : ¬IsFreeClock rest') : after rest = zoned := by
  cases rest with
  | nil => contradiction
  | cons c cs =>
    rw [divider, Option.ite_none_right_eq_some, Option.some.injEq] at hdivider
    obtain ⟨rfl | rfl | rfl, rfl⟩ := hdivider
    · exact if_neg hclock
    · have hnone : freeClock false ('t' :: cs) = none :=
        freeClock_cons_eq_none false (by decide) (by decide) cs
      have hmore : ¬IsFreeClock ('t' :: cs) := by
        rw [IsFreeClock, hnone]
        nofun
      rw [after_cons (by decide), if_neg hmore]
    · have htrim : trimStart (' ' :: cs) = trimStart cs := by
        rw [trimStart_cons, if_pos (by decide)]
      have hsame : freeClock false (' ' :: cs) = freeClock false cs := by
        rw [← freeClock_trimStart false (' ' :: cs), htrim, freeClock_trimStart]
      have hmore : ¬IsFreeClock (' ' :: cs) := by rwa [IsFreeClock, hsame]
      rw [after_cons (by decide), if_neg hmore]

/-- What is a time after blanks may be nothing else. -/
lemma after_freeClock {rest : List Char} (hclock : IsFreeClock rest) : after rest = spaced := by
  have hnone : ∀ cs, ¬IsFreeClock ('T' :: cs) := fun cs => by
    rw [IsFreeClock, freeClock_cons_eq_none false (by decide) (by decide)]
    nofun
  unfold after
  split
  · exact absurd hclock (by decide)
  · exact absurd hclock (hnone _)
  · exact if_pos hclock

/-- What was read in the strict form is a day and a time in UTC, moved by the distance from it. -/
lemma exists_of_readZoned (h : readZoned cs = some date) :
    ∃ n rest rest' clock tail nano tail' east there, fixedDay cs = some (n, rest) ∧
      divider rest = some rest' ∧ fixedClock rest' = some (clock, tail) ∧
      fraction tail = some (nano, tail') ∧ zone tail' = some (east, []) ∧
      assemble n clock nano = some there ∧ there.addMinutes? (-east) = some date := by
  simp only [readZoned, Option.bind_eq_bind, Option.bind_eq_some_iff] at h
  obtain ⟨⟨n, rest⟩, hday, rest', hdivider, ⟨clock, tail⟩, hclock, h⟩ := h
  obtain ⟨⟨nano, tail'⟩, hfraction, ⟨east, _⟩, hzone, h⟩ := h
  obtain ⟨rfl, h⟩ := Option.ite_none_right_eq_some.1 h
  obtain ⟨there, hthere, hmoved⟩ := Option.bind_eq_some_iff.1 h
  exact ⟨n, rest, rest', clock, tail, nano, tail', east, there, hday, hdivider, hclock, hfraction,
    hzone, hthere, hmoved⟩

/-- A key in the form with a blank has a day, blanks and a clock, and nothing after it. -/
lemma exists_of_readSpaced (h : readSpaced cs = some date) :
    ∃ n rest clock, freeDay false cs = some (n, rest) ∧
      freeClock false (trimStart rest) = some (clock, []) ∧ assemble n clock 0 = some date := by
  simp only [readSpaced, Option.bind_eq_bind, Option.bind_eq_some_iff] at h
  obtain ⟨⟨n, rest⟩, hday, ⟨clock, _⟩, hclock, h⟩ := h
  obtain ⟨rfl, hdate⟩ := Option.ite_none_right_eq_some.1 h
  exact ⟨n, rest, clock, hday, hclock, hdate⟩

/-- A key in the form with a divider has a day, the divider and a clock, and no more. -/
lemma exists_of_readJoined (h : readJoined cs = some date) :
    ∃ n rest clock, freeDay false cs = some (n, 'T' :: rest) ∧
      freeClock false rest = some (clock, []) ∧ assemble n clock 0 = some date := by
  simp only [readJoined, Option.bind_eq_bind, Option.bind_eq_some_iff] at h
  obtain ⟨⟨n, _⟩, hday, rest, hmark, ⟨clock, _⟩, hclock, h⟩ := h
  obtain ⟨rfl, hdate⟩ := Option.ite_none_right_eq_some.1 h
  obtain rfl := exists_of_mark hmark
  exact ⟨n, rest, clock, hday, hclock, hdate⟩

/-- A key in the form of a day has a day and nothing after it. -/
lemma exists_of_readDay (h : readDay cs = some date) :
    ∃ n, freeDay false cs = some (n, []) ∧ DateTime.ofDay? n .midnight = some date := by
  simp only [readDay, Option.bind_eq_bind, Option.bind_eq_some_iff] at h
  obtain ⟨⟨n, _⟩, hday, h⟩ := h
  obtain ⟨rfl, hdate⟩ := Option.ite_none_right_eq_some.1 h
  exact ⟨n, hday, hdate⟩

/-- A text in a form starts with a day in the free manner, and what follows tells the form. -/
lemma exists_freeDay_of_read {form : KeyFormat} (h : form.read cs = some date) :
    ∃ n rest, freeDay false cs = some (n, rest) ∧ form = after rest := by
  cases form with
  | zoned =>
    obtain ⟨n, rest, rest', clock, tail, nano, tail', east, there, hday, hdivider, hclock,
      hfraction, hzone, -, -⟩ := exists_of_readZoned h
    obtain ⟨day, hexists, rfl⟩ := exists_of_fixedDay hday
    obtain ⟨clock, rfl⟩ := exists_of_fixedClock hclock
    have htail : tail ≠ [] := by
      rintro rfl
      obtain ⟨-, rfl⟩ := Prod.mk.inj (Option.some.inj hfraction)
      contradiction
    have hmore : ¬IsFreeClock (clock.text ++ tail) := by
      rw [IsFreeClock, freeClock_text]
      exact fun heq => htail (Option.some.inj heq)
    refine ⟨n, rest, ?_, (after_divider hdivider hmore).symm⟩
    rw [freeDay_text, hexists]
    rfl
  | spaced =>
    obtain ⟨n, rest, clock, hday, hclock, -⟩ := exists_of_readSpaced h
    rw [freeClock_trimStart] at hclock
    have hrest : IsFreeClock rest := by rw [IsFreeClock, hclock]; rfl
    exact ⟨n, rest, hday, (after_freeClock hrest).symm⟩
  | joined =>
    obtain ⟨n, rest, clock, hday, hclock, -⟩ := exists_of_readJoined h
    have hrest : IsFreeClock rest := by rw [IsFreeClock, hclock]; rfl
    exact ⟨n, _, hday, (if_pos hrest).symm⟩
  | dayOnly =>
    obtain ⟨n, hday, -⟩ := exists_of_readDay h
    exact ⟨n, [], hday, rfl⟩

/-- No text is a date in two forms. -/
lemma eq_of_read {form form' : KeyFormat} {date' : DateTime} (h : form.read cs = some date)
    (h' : form'.read cs = some date') : form = form' := by
  obtain ⟨_, _, hday, rfl⟩ := exists_freeDay_of_read h
  obtain ⟨_, _, hday', rfl⟩ := exists_freeDay_of_read h'
  obtain ⟨-, rfl⟩ := Prod.mk.inj (Option.some.inj (hday.symm.trans hday'))
  rfl

/-- Every form is tried. -/
lemma mem_all (form : KeyFormat) : form ∈ all := by
  cases form <;> decide

/-- The forms may be tried in any order, if none is left out. -/
lemma findSome?_read_eq_some_iff {forms : List KeyFormat} (hforms : ∀ form, form ∈ forms) :
    forms.findSome? (·.read cs) = some date ↔ ∃ form : KeyFormat, form.read cs = some date := by
  constructor
  · intro h
    obtain ⟨form, -, hread⟩ := List.exists_of_findSome?_eq_some h
    exact ⟨form, hread⟩
  · rintro ⟨form, hread⟩
    cases hfound : forms.findSome? (·.read cs) with
    | none =>
      have hnone := List.findSome?_eq_none_iff.1 hfound form (hforms form)
      rw [hread] at hnone
      contradiction
    | some date' =>
      obtain ⟨form', -, hread'⟩ := List.exists_of_findSome?_eq_some hfound
      obtain rfl := eq_of_read hread hread'
      exact hread'.symm.trans hread

end KeyFormat

/-! ### Buckets -/

namespace DateBucket

/-- The bucket of a key whose form is looked for among the given ones, in their order. -/
def ofKeyAmong (forms : List KeyFormat) (key : String) (count : UInt64) : Except Fault DateBucket :=
  let key := trim key.toList
  match forms.findSome? (·.read key) with
  | some date => .ok ⟨date, count⟩
  | none => .error (.bucketKey (String.ofList key))

/-- The forms are tried in the order of their list. -/
lemma ofKey_eq_ofKeyAmong (key : String) (count : UInt64) :
    ofKey key count = ofKeyAmong KeyFormat.all key count :=
  rfl

/-- The order of the forms decides nothing. -/
lemma ofKeyAmong_eq {forms : List KeyFormat} (hforms : ∀ form, form ∈ forms) (key : String)
    (count : UInt64) : ofKeyAmong forms key count = ofKey key count := by
  have hfound : forms.findSome? (·.read (trim key.toList)) =
      KeyFormat.all.findSome? (·.read (trim key.toList)) := by
    ext date
    rw [KeyFormat.findSome?_read_eq_some_iff hforms,
      KeyFormat.findSome?_read_eq_some_iff KeyFormat.mem_all]
  rw [ofKey_eq_ofKeyAmong, ofKeyAmong, hfound, ofKeyAmong]

/-- A key is refused exactly if it has none of the forms. -/
lemma ofKey_eq_error_iff {key : String} {count : UInt64} {fault : Fault} :
    ofKey key count = .error fault ↔
      (∀ form : KeyFormat, form.read (trim key.toList) = none) ∧
        fault = .bucketKey (String.ofList (trim key.toList)) := by
  have hnone : DateTime.ofKey? (trim key.toList) = none ↔
      ∀ form : KeyFormat, form.read (trim key.toList) = none := by
    rw [DateTime.ofKey?, List.findSome?_eq_none_iff]
    exact forall_congr' fun form => imp_iff_right form.mem_all
  rw [← hnone]
  cases hkey : DateTime.ofKey? (trim key.toList) with
  | none => simp [ofKey, hkey, eq_comm]
  | some date => simp [ofKey, hkey]

/-- **A key has one form at most.**  With the blanks around it cut off, no key is read in two of the
four forms.  The forms may hence be tried in any order.  The bucket of a key is that of the date
read in its form, and keys without a form are refused as data, by name. -/
theorem ofKey_unambiguous (key : String) (count : UInt64) :
    (∀ form form' : KeyFormat, (form.read (trim key.toList)).isSome →
      (form'.read (trim key.toList)).isSome → form = form') ∧
    (∀ forms : List KeyFormat, (∀ form, form ∈ forms) →
      ofKeyAmong forms key count = ofKey key count) ∧
    (∀ bucket, ofKey key count = .ok bucket ↔
      ∃ form : KeyFormat, form.read (trim key.toList) = some bucket.date ∧ bucket.count = count) ∧
    ((∃ fault, ofKey key count = .error fault) ↔
      ∀ form : KeyFormat, form.read (trim key.toList) = none) ∧
    ∀ fault, ofKey key count = .error fault →
      fault.kind = .data ∧
        fault.message = "invalid data: cannot parse date bucket key `" ++
          String.ofList (trim key.toList) ++ "`" := by
  refine ⟨?_, ?_, ?_, ?_, ?_⟩
  · intro form form' h h'
    obtain ⟨date, hread⟩ := Option.isSome_iff_exists.1 h
    obtain ⟨date', hread'⟩ := Option.isSome_iff_exists.1 h'
    exact KeyFormat.eq_of_read hread hread'
  · intro forms hforms
    exact ofKeyAmong_eq hforms key count
  · intro bucket
    rw [ofKey_eq_ok_iff, DateTime.ofKey?, KeyFormat.findSome?_read_eq_some_iff KeyFormat.mem_all,
      exists_and_right]
  · simp only [ofKey_eq_error_iff, exists_and_left, exists_eq, and_true]
  · intro fault h
    obtain ⟨-, rfl⟩ := ofKey_eq_error_iff.1 h
    exact ⟨rfl, rfl⟩

end DateBucket

end PlotAnnotation
