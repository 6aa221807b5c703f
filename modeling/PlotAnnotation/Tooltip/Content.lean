import PlotAnnotation.Decimal.Text
import PlotAnnotation.Json.Wire
import PlotAnnotation.Text.Markup

/-!
# What a tooltip says

The label of a point and its value, as plain text or as markup with the label emphasized.
-/

namespace PlotAnnotation

open Json

/-- A label and a value. -/
structure TooltipContent where
  label : String
  value : Float
deriving DecidableEq, Repr

namespace TooltipContent

/-- The content as plain text. -/
def text (c : TooltipContent) : String :=
  c.label ++ ": " ++ numberLabel c.value

/-- The content as markup. -/
def html (c : TooltipContent) : String :=
  "<strong>" ++ Text.Markup.escape c.label ++ ":</strong> " ++ numberLabel c.value

instance : Wire TooltipContent where
  toValue c := .object [("label", .string c.label), ("value", .ofFloat c.value)]
  ofTree? t := do
    let field ← fields? ["label", "value"] t
    return { label := ← (field "label").required Tree.toText?
             value := ← (field "value").required Tree.toFloat? }

end TooltipContent

end PlotAnnotation
