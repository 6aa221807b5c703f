import PlotAnnotation.Arithmetic
import PlotAnnotation.Fault
import PlotAnnotation.Json.Wire

/-!
# Points and places

A data point is an instant in milliseconds and a value; its wire form is the array of the two.  An
instant that is not written as an integer of 64 bits is read as a double, cut off toward zero, and
kept within the range of timestamps.

A position is a place on the page in pixels, a viewport the size of a canvas.
-/

namespace PlotAnnotation

open Json
open scoped Arithmetic

/-- A plotted sample. -/
structure DataPoint where
  timestamp : Int64
  value : Float
deriving DecidableEq, Repr

/-- The integer nearest to `n` within the range of timestamps. -/
def clampTimestamp (n : Int) : Int64 :=
  Int64.ofInt (max (-2 ^ 63) (min (2 ^ 63 - 1) n))

/-- The timestamp that a double stands for. -/
def timestampOfFloat (x : Float) : Except Fault Int64 :=
  if x.isFinite then .ok (clampTimestamp (Binary64.truncate x)) else .error (.timestamp x)

namespace DataPoint

/-- The point at an instant given as a double. -/
def ofFloats (timestamp value : Float) : Except Fault DataPoint := do
  return ⟨← timestampOfFloat timestamp, value⟩

/-- The timestamp that a number stands for. -/
def readTimestamp : Number → Except Fault Int64
  | .int n lower upper =>
    if n < 2 ^ 63 then .ok (Int64.ofInt n) else timestampOfFloat (Number.int n lower upper).toFloat
  | .float x _ => timestampOfFloat x

/-- Reads a point from its wire form. -/
def ofTree? : Tree → Option DataPoint
  | .array [.number t, .number v] => (readTimestamp t).toOption.map (⟨·, v.toFloat⟩)
  | _ => none

instance : Wire DataPoint where
  toValue p := .array [.ofInt64 p.timestamp, .ofFloat p.value]
  ofTree? := ofTree?

end DataPoint

/-- A place on the page. -/
structure Position where
  x : Float := 0
  y : Float := 0
deriving DecidableEq, Repr

namespace Position

/-- The place at a distance. -/
def moved (p : Position) (dx dy : Float) : Position :=
  ⟨p.x + dx, p.y + dy⟩

instance : Wire Position where
  toValue p := .object [("x", .ofFloat p.x), ("y", .ofFloat p.y)]
  ofTree? t := do
    let field ← fields? ["x", "y"] t
    return { x := ← (field "x").required Tree.toFloat?
             y := ← (field "y").required Tree.toFloat? }

end Position

/-- The size of a canvas. -/
structure Viewport where
  width : UInt32
  height : UInt32
deriving DecidableEq, Repr

namespace Viewport

/-- Both sides are positive. -/
def IsValid (v : Viewport) : Prop :=
  0 < v.width ∧ 0 < v.height

instance (v : Viewport) : Decidable v.IsValid :=
  inferInstanceAs (Decidable (_ ∧ _))

instance : Wire Viewport where
  toValue v := .object [("width", .ofUInt32 v.width), ("height", .ofUInt32 v.height)]
  ofTree? t := do
    let field ← fields? ["width", "height"] t
    return { width := ← (field "width").required Tree.toUInt32?
             height := ← (field "height").required Tree.toUInt32? }

end Viewport

end PlotAnnotation
