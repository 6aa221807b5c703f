import PlotAnnotation.Canvas.Color
import PlotAnnotation.Point

/-!
# Frames of text on a canvas

A frame is a canvas and the texts drawn on it in one pass.  It is checked before it is drawn: the
canvas first, then text after text.
-/

namespace PlotAnnotation

/-- Whether a size of text can be drawn. -/
def isTextSize (x : Float) : Bool :=
  x.isFinite && !(x ≤ 0)

/-- A text on a canvas, centered on `x`. -/
structure TextMark where
  text : String
  x : Float
  y : Float
  /-- The size in pixels. -/
  size : Float
  color : Color
deriving DecidableEq, Repr

namespace TextMark

/-- Refuses a text that cannot be drawn. -/
def check (t : TextMark) : Except Fault Unit :=
  if t.text = "" then .error .emptyText
  else if !(t.x.isFinite && t.y.isFinite) then .error .textPlace
  else if !isTextSize t.size then .error .textSize
  else t.color.check

end TextMark

/-- A canvas and the texts drawn on it. -/
structure Frame where
  viewport : Viewport
  texts : List TextMark := []
deriving DecidableEq, Repr

namespace Frame

/-- Refuses a frame that cannot be drawn, for the first reason there is. -/
def check (f : Frame) : Except Fault Unit :=
  if f.viewport.IsValid then f.texts.forM TextMark.check
  else .error (.viewport f.viewport.width f.viewport.height)

/-- Whether nothing is drawn. -/
def isEmpty (f : Frame) : Bool :=
  f.texts.isEmpty

end Frame

end PlotAnnotation
