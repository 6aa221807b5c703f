import PlotAnnotation.Fault
import PlotAnnotation.Json.Wire

/-!
# How a tooltip looks

The style of the floating element, written as inline CSS for an element that is placed freely and
not yet shown.
-/

namespace PlotAnnotation

open Json

/-- Numbers in style sheets: always written out in full. -/
def NumberFormat.css : NumberFormat where
  plain := none
  pointed := false
  tie := .up

/-- The text of a number in a style sheet. -/
def cssNumber (x : Float) : String :=
  if x.isFinite then String.ofList (NumberFormat.css.write x) else Fault.nonFiniteText x

/-- The look of the floating element. -/
structure TooltipStyle where
  elementId : String := "tooltip"
  border : String := "1px solid #fdd"
  padding : String := "2px"
  backgroundColor : String := "#fee"
  opacity : Float := 0.8
deriving DecidableEq, Repr

namespace TooltipStyle

/-- The inline style of the element when it is created. -/
def css (s : TooltipStyle) : String :=
  "position: absolute; display: none; border: " ++ s.border ++ "; padding: " ++ s.padding ++
    "; background-color: " ++ s.backgroundColor ++ "; opacity: " ++ cssNumber s.opacity

instance : Wire TooltipStyle where
  toValue s := .object [("element_id", .string s.elementId), ("border", .string s.border),
    ("padding", .string s.padding), ("background_color", .string s.backgroundColor),
    ("opacity", .ofFloat s.opacity)]
  ofTree? t := do
    let field ← fields? ["element_id", "border", "padding", "background_color", "opacity"] t
    return { elementId := ← (field "element_id").required Tree.toText?
             border := ← (field "border").required Tree.toText?
             padding := ← (field "padding").required Tree.toText?
             backgroundColor := ← (field "background_color").required Tree.toText?
             opacity := ← (field "opacity").required Tree.toFloat? }

end TooltipStyle

end PlotAnnotation
