import PlotAnnotation.Canvas.Frame

/-!
# Numbers over bars

Each bar of a bar chart may carry its value as a text above its top.  A bar without a finite value
carries none.  The texts are placed by the configuration of the series; a distance from the top that
is zero or not finite is the default one.
-/

namespace PlotAnnotation

open Json

/-- How the numbers over the bars of a series are drawn. -/
structure BarNumbersConfig where
  shown : Bool := true
  /-- The distance from the top of the bar. -/
  top : Option Float := none
  /-- The size of the text in pixels. -/
  size : Float := 10
  color : Color := .black
deriving DecidableEq, Repr

namespace BarNumbersConfig

/-- The distance from the top that is applied. -/
def distance (c : BarNumbersConfig) : Float :=
  match c.top with
  | some top => if top != 0 && top.isFinite then top else 3
  | none => 3

/-- Refuses a size or a color that cannot be drawn. -/
def check (c : BarNumbersConfig) : Except Fault Unit :=
  if isTextSize c.size then c.color.check else .error .barNumberSize

/-- The color has no wire form and is read as black. -/
instance : Wire BarNumbersConfig where
  toValue c := .object [("show", .bool c.shown), ("top", (c.top.map Value.ofFloat).getD .null),
    ("font_size_px", .ofFloat c.size)]
  ofTree? t := do
    let field ← fields? ["show", "top", "font_size_px"] t
    return { shown := ← (field "show").orDefault Tree.toBool? true
             top := ← (field "top").orDefault (Slot.nullable Tree.toFloat?) none
             size := ← (field "font_size_px").orDefault Tree.toFloat? 10 }

end BarNumbersConfig

/-- The top left corner of a bar on the canvas, and its value. -/
structure Bar where
  left : Float
  top : Float
  value : Float
deriving DecidableEq, Repr

instance : Wire Bar where
  toValue b := .object [("left_px", .ofFloat b.left), ("top_px", .ofFloat b.top),
    ("value", .ofFloat b.value)]
  ofTree? t := do
    let field ← fields? ["left_px", "top_px", "value"] t
    return { left := ← (field "left_px").required Tree.toFloat?
             top := ← (field "top_px").required Tree.toFloat?
             value := ← (field "value").required Tree.toFloat? }

/-- The place of the plot within the canvas. -/
structure PlotOffset where
  left : Float := 0
  top : Float := 0
deriving DecidableEq, Repr

instance : Wire PlotOffset where
  toValue o := .object [("left", .ofFloat o.left), ("top", .ofFloat o.top)]
  ofTree? t := do
    let field ← fields? ["left", "top"] t
    return { left := ← (field "left").required Tree.toFloat?
             top := ← (field "top").required Tree.toFloat? }

namespace BarNumbers

/-- The number over one bar. -/
def mark (offset : PlotOffset) (config : BarNumbersConfig) (bar : Bar) : TextMark where
  text := numberLabel bar.value
  x := bar.left + offset.left
  y := bar.top + offset.top + config.distance
  size := config.size
  color := config.color

/-- The numbers over the bars that have one. -/
def place (bars : List Bar) (offset : PlotOffset) (config : BarNumbersConfig) :
    Except Fault (List TextMark) := do
  config.check
  if config.shown then
    return (bars.filter (·.value.isFinite)).map (mark offset config)
  else return []

/-- The frame with the numbers over the bars. -/
def frame (viewport : Viewport) (bars : List Bar) (offset : PlotOffset)
    (config : BarNumbersConfig) : Except Fault Frame := do
  return { viewport, texts := ← place bars offset config }

end BarNumbers

end PlotAnnotation
