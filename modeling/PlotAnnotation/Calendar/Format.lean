import PlotAnnotation.Arithmetic
import PlotAnnotation.Calendar.Fields

/-!
# The written forms of a date

The key of a date bucket is written in one of four forms, a `KeyFormat`.  A text is read in a form
only if the form uses it up.  The forms are tried one after the other; no text has two of them, so
the order does not matter.

Between programs a date has one written form, the wire form, made by `DateTime.toWire` and read by
`DateTime.ofWire?`: year, month and day, `T`, the time, and as many of 0, 3, 6 or 9 places as the
fraction needs.  Years of more or fewer than four digits have a sign.
-/

namespace PlotAnnotation

open Calendar Text
open scoped Arithmetic

/-- The written forms of a bucket key. -/
inductive KeyFormat where
  /-- `YYYY-MM-DDTHH:MM:SS` with a fraction and a distance from UTC, in the strict manner. -/
  | zoned
  /-- `Y-M-D H:M:S` -/
  | spaced
  /-- `Y-M-DTH:M:S` -/
  | joined
  /-- `Y-M-D`, the start of that day. -/
  | dayOnly
deriving DecidableEq, Repr

namespace KeyFormat

/-- The forms, in the order they are tried. -/
def all : List KeyFormat := [zoned, spaced, joined, dayOnly]

/-- A day and a time on the clock, in the calendar. -/
def assemble (day : Int) (clock : Nat × Nat × Nat) (nano : Nat) : Option DateTime := do
  let time ← TimeOfDay.ofClock? clock.1 clock.2.1 clock.2.2 nano
  DateTime.ofDay? day time

/-- What stands between day and time in the strict form: one of `T`, `t` and a space. -/
def divider : List Char → Option (List Char)
  | c :: cs => if c = 'T' ∨ c = 't' ∨ c = ' ' then some cs else none
  | [] => none

/-- Reads a zoned date, in UTC. -/
def readZoned (cs : List Char) : Option DateTime := do
  let (day, cs) ← fixedDay cs
  let cs ← divider cs
  let (clock, cs) ← fixedClock cs
  let (nano, cs) ← fraction cs
  let (east, cs) ← zone cs
  if cs = [] then
    let date ← assemble day clock nano
    date.addMinutes? (-east)
  else none

/-- Reads a day, then a time after blanks. -/
def readSpaced (cs : List Char) : Option DateTime := do
  let (day, cs) ← freeDay false cs
  let (clock, cs) ← freeClock false (trimStart cs)
  if cs = [] then assemble day clock 0 else none

/-- Reads a day, `T` and a time. -/
def readJoined (cs : List Char) : Option DateTime := do
  let (day, cs) ← freeDay false cs
  let cs ← mark 'T' cs
  let (clock, cs) ← freeClock false cs
  if cs = [] then assemble day clock 0 else none

/-- Reads a day. -/
def readDay (cs : List Char) : Option DateTime := do
  let (day, cs) ← freeDay false cs
  if cs = [] then DateTime.ofDay? day TimeOfDay.midnight else none

/-- The date that a text is in a form. -/
def read : KeyFormat → List Char → Option DateTime
  | zoned => readZoned
  | spaced => readSpaced
  | joined => readJoined
  | dayOnly => readDay

end KeyFormat

namespace DateTime

/-- The date of a bucket key without blanks around it. -/
def ofKey? (cs : List Char) : Option DateTime :=
  KeyFormat.all.findSome? (·.read cs)

/-! ### The wire form -/

/-- A number with zeros before it up to a width. -/
def padded (width n : Nat) : List Char :=
  let digits := Nat.toDigits 10 n
  List.replicate (width - digits.length) '0' ++ digits

/-- A year of four digits, or a sign and four digits or more. -/
def yearText (year : Int) : List Char :=
  if 0 ≤ year ∧ year ≤ 9999 then padded 4 year.toNat
  else (if year < 0 then '-' else '+') :: padded 4 year.natAbs

/-- A fraction of a second, with the fewest groups of three places that hold it. -/
def fractionText (nano : Nat) : List Char :=
  if nano = 0 then []
  else if nano % 10 ^ 6 = 0 then '.' :: padded 3 (nano / 10 ^ 6)
  else if nano % 10 ^ 3 = 0 then '.' :: padded 6 (nano / 10 ^ 3)
  else '.' :: padded 9 nano

/-- The time on the clock; a leap second is second 60. -/
def clockText (time : TimeOfDay) : List Char :=
  let leap := time.nano / 10 ^ 9
  padded 2 (time.second / 3600) ++ ':' :: padded 2 (time.second / 60 % 60) ++
    ':' :: padded 2 (time.second % 60 + leap) ++ fractionText (time.nano % 10 ^ 9)

/-- The wire form of a date. -/
def toWire (t : DateTime) : String :=
  let date := CalendarDate.ofDayNumber t.day
  String.ofList (yearText date.year ++ '-' :: padded 2 (date.month0 + 1) ++
    '-' :: padded 2 date.day ++ 'T' :: clockText t.time)

/-- Reads the wire form, with the freedom of blanks and short numbers. -/
def ofWire? (s : String) : Option DateTime := do
  let (day, cs) ← freeDay true s.toList
  let cs ← freeMark true 'T' cs
  let (clock, cs) ← freeClock true cs
  let (nano, cs) ← fraction cs
  if trimStart cs = [] then KeyFormat.assemble day clock nano else none

end DateTime

end PlotAnnotation
