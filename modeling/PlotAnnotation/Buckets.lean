import PlotAnnotation.Calendar.Format
import PlotAnnotation.Fault
import PlotAnnotation.Json.Wire

/-!
# Buckets of records

Records are counted in buckets, by the value of a field or by date.  A date bucket comes with a key
that is read as a date in one of the forms of a key, blanks around it aside.
-/

namespace PlotAnnotation

open Json

/-- The records with one value of a field; without a key, those where the field is missing. -/
structure CountBucket where
  key : Option String
  count : UInt64
deriving DecidableEq, Repr

instance : Wire CountBucket where
  toValue b := .object [("key", .ofText? b.key), ("count", .ofUInt64 b.count)]
  ofTree? t := do
    let field ← fields? ["key", "count"] t
    return { key := ← (field "key").optional Tree.toText?
             count := ← (field "count").required Tree.toUInt64? }

/-- The records of one span of time, by the date it starts at. -/
structure DateBucket where
  date : DateTime
  count : UInt64
deriving DecidableEq, Repr

namespace DateBucket

/-- The bucket of a key. -/
def ofKey (key : String) (count : UInt64) : Except Fault DateBucket :=
  let key := Text.trim key.toList
  match DateTime.ofKey? key with
  | some date => .ok ⟨date, count⟩
  | none => .error (.bucketKey (String.ofList key))

/-- The instant that the bucket starts at. -/
def timestamp (b : DateBucket) : Int64 :=
  b.date.timestamp

instance : Wire DateBucket where
  toValue b := .object [("date", .string b.date.toWire), ("count", .ofUInt64 b.count)]
  ofTree? t := do
    let field ← fields? ["date", "count"] t
    return { date := ← (field "date").required fun t => t.toText?.bind DateTime.ofWire?
             count := ← (field "count").required Tree.toUInt64? }

end DateBucket

end PlotAnnotation
