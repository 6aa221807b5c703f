import PlotAnnotation.Label
import PlotAnnotation.Tooltip.Surface

/-!
# How a graph answers hovering

The labels' granularity and language, the place of the tooltip beside the pointer, the time it
takes to fade in, the offset from UTC and the style of the tooltip.
-/

namespace PlotAnnotation

open Json

/-- The way from the pointer to the corner of the tooltip: up and to the left, so that the point
stays in view. -/
structure TooltipOffset where
  dx : Float := -40
  dy : Float := -40
deriving DecidableEq, Repr

instance : Wire TooltipOffset where
  toValue o := .object [("dx", .ofFloat o.dx), ("dy", .ofFloat o.dy)]
  ofTree? t := do
    let field ← fields? ["dx", "dy"] t
    return { dx := ← (field "dx").required Tree.toFloat?
             dy := ← (field "dy").required Tree.toFloat? }

/-- How a graph answers hovering. -/
structure HoverConfig where
  /-- The finest field of a label; without it, labels show the whole date. -/
  granularity : Option Granularity := none
  language : Option String := none
  offset : TooltipOffset := {}
  /-- The time that a tooltip has to fade in. -/
  fadeIn : Duration := .ofMillis 200
  utcOffset : UtcOffset := .utc
  style : TooltipStyle := {}
deriving DecidableEq, Repr

namespace HoverConfig

/-- Sets the granularity by its name; any other name shows the whole date. -/
def withGranularityName (c : HoverConfig) (name : String) : HoverConfig :=
  { c with granularity := Granularity.ofName? name }

/-- The language of the labels. -/
def effectiveLanguage (c : HoverConfig) : String :=
  c.language.getD fallbackLanguage

end HoverConfig

end PlotAnnotation
