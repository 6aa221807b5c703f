/-!
# Letter case

Upper-case letters of ASCII written small; all other characters stay as they are.
-/

namespace PlotAnnotation.Text

/-- A text with the letters `A` to `Z` written small. -/
def lower (cs : List Char) : List Char :=
  cs.map Char.toLower

end PlotAnnotation.Text
