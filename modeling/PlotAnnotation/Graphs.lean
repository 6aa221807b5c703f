import PlotAnnotation.Buckets
import PlotAnnotation.Options
import PlotAnnotation.Settings

/-!
# The graphs of a page

From its settings and its buckets a page has up to three graphs: a bar graph of the values of a
field, a line graph of the running total over time, and a bar graph of the records in each span of
time.  The running total is added up in words of 64 bits, so each value is rounded once, and it is
the sum of the counts as long as that sum fits.
-/

namespace PlotAnnotation

open Json

/-- A graph of a page.  The points of a graph of values stand at 0, 1, 2, and so on. -/
structure Graph where
  title : String
  data : List DataPoint
  /-- The options of the chart engine. -/
  options : Object
deriving DecidableEq

namespace Graph

/-- The options that a page hands to the graph. -/
def toOptions (g : Graph) : GraphOptions where
  data := g.data
  config := g.options

instance : Wire Graph where
  toValue g := .object [("title", .string g.title), ("data", .array (g.data.map Wire.toValue)),
    ("options", g.options.toValue)]
  ofTree? t := do
    let field ← fields? ["title", "data", "options"] t
    return { title := ← (field "title").required Tree.toText?
             data := ← (field "data").required (Tree.toList? Wire.ofTree?)
             options := ← (field "options").required Object.ofTree? }

end Graph

namespace Graphs

/-- An integer that has 64 bits, as a value. -/
def integer (n : Nat) : Value :=
  .ofUInt64 (UInt64.ofNat n)

/-- The engine options of bars. -/
def barStyle : Value :=
  .object [("show", .bool true), ("barWidth", .ofFloat 0.6), ("align", .string "center")]

/-- The engine options of a shape that is only shown. -/
def shownStyle : Value :=
  .object [("show", .bool true)]

/-- The engine options that all graphs over time end with. -/
def dateStyle : List (String × Value) :=
  [("grid", .object [("hoverable", .bool true), ("clickable", .bool true)]),
    ("xaxis", .object [("mode", .string "time")]),
    ("yaxis", .object [("tickDecimals", integer 0)])]

/-! ### Counts by value -/

/-- The number of buckets that a graph of values shows. -/
def bucketLimit : Nat := 25

/-- The name of the bucket of missing values. -/
def missingName : String := "Empty"

/-- The name of a bucket. -/
def bucketName (b : CountBucket) : String :=
  b.key.getD missingName

/-- The point of a bucket at a place. -/
def countPoint (b : CountBucket) (i : Nat) : DataPoint :=
  ⟨Int64.ofNat i, Binary64.ofInt b.count.toNat⟩

/-- The name under the bar at a place. -/
def tick (b : CountBucket) (i : Nat) : Value :=
  .array [integer i, .string (bucketName b)]

/-- The engine options of a graph of values. -/
def countOptions (buckets : List CountBucket) : Object where
  entries := [("bars", barStyle),
    ("xaxis", .object [("ticks", .array (buckets.mapIdx fun i b => tick b i)),
      ("rotateTicks", integer 60)])]
  distinct := by
    have h : Value.AllDistinct (buckets.mapIdx fun i b => tick b i) := by
      rw [Value.allDistinct_iff]
      intro v hv
      obtain ⟨i, hi, rfl⟩ := List.mem_mapIdx.1 hv
      simp [tick, integer, Value.ofUInt64, Value.Distinct, Value.AllDistinct]
    simp only [Value.Distinct, Value.EntriesDistinct, barStyle, integer, Value.ofUInt64]
    simp [h, Keyed.keys, Value.ofFloat]
    split <;> trivial

/-- The graph of the values of a field, of the first buckets given. -/
def ofCounts (s : GraphSettings) (buckets : List CountBucket) : Option Graph :=
  if s.wantsCounts ∧ buckets ≠ [] then
    s.countField.map fun name =>
      let shown := buckets.take bucketLimit
      { title := s.countLabel.getD name
        data := shown.mapIdx fun i b => countPoint b i
        options := countOptions shown }
  else none

/-! ### Counts over time -/

/-- The running total from a start on, in words of 64 bits as the counts are. -/
def totals (start : UInt64) : List DateBucket → List UInt64
  | [] => []
  | b :: bs => (start + b.count) :: totals (start + b.count) bs

/-- The points of numbers at the instants of buckets. -/
def datePoints (buckets : List DateBucket) (values : List UInt64) : List DataPoint :=
  buckets.zipWith (fun b n => ⟨b.timestamp, Binary64.ofInt n.toNat⟩) values

/-- The engine options of the running total. -/
def totalOptions (width : BucketWidth) : Object where
  entries := [("series", .object [("lines", shownStyle), ("points", shownStyle)]),
    (granularityKey, .string width.name)] ++ dateStyle
  distinct := by
    simp [Value.Distinct, Value.EntriesDistinct, shownStyle, dateStyle, integer, Value.ofUInt64,
      Keyed.keys, granularityKey]

/-- The engine options of the records in each span. -/
def spanOptions : Object where
  entries := ("series", .object [("bars", barStyle)]) :: dateStyle
  distinct := by
    simp [Value.Distinct, Value.EntriesDistinct, barStyle, dateStyle, integer, Value.ofUInt64,
      Keyed.keys, Value.ofFloat]
    split <;> trivial

/-- The graph of the running total. -/
def total (s : GraphSettings) (buckets : List DateBucket) : Graph where
  title := "Total records"
  data := datePoints buckets (totals 0 buckets)
  options := totalOptions s.width

/-- The graph of the records in each span of time. -/
def perSpan (s : GraphSettings) (buckets : List DateBucket) : Graph where
  title := "Per " ++ s.width.name
  data := datePoints buckets (buckets.map (·.count))
  options := spanOptions

/-- The graphs over time. -/
def ofDates (s : GraphSettings) (buckets : List DateBucket) : List Graph :=
  if s.wantsDates ∧ buckets ≠ [] then [total s buckets, perSpan s buckets] else []

/-- All graphs of a page, the graph of values first. -/
def all (s : GraphSettings) (counts : List CountBucket) (dates : List DateBucket) : List Graph :=
  (ofCounts s counts).toList ++ ofDates s dates

end Graphs

end PlotAnnotation
