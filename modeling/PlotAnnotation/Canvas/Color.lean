import PlotAnnotation.Fault

/-!
# Colors

A color has four channels, each from 0 to 1.  A color given from outside may be out of range; the
first channel that is, in the order red, green, blue, alpha, is the fault.
-/

namespace PlotAnnotation

/-- A color with its opacity. -/
structure Color where
  red : Float
  green : Float
  blue : Float
  alpha : Float := 1
deriving DecidableEq, Repr

namespace Color

/-- Opaque black. -/
def black : Color where
  red := 0
  green := 0
  blue := 0

/-- The channels with their values, in order. -/
def channels (c : Color) : List (Channel × Float) :=
  [(.red, c.red), (.green, c.green), (.blue, c.blue), (.alpha, c.alpha)]

/-- Whether a value is one a channel may have. -/
def inRange (x : Float) : Bool :=
  x.isFinite && 0 ≤ x && x ≤ 1

/-- Refuses a color with a channel out of range. -/
def check (c : Color) : Except Fault Unit :=
  match c.channels.find? fun (_, x) => !inRange x with
  | some (channel, _) => .error (.channel channel)
  | none => .ok ()

end Color

end PlotAnnotation
