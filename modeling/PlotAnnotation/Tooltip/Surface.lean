import PlotAnnotation.Point
import PlotAnnotation.Tooltip.Content
import PlotAnnotation.Tooltip.Style

/-!
# The surface that shows a tooltip

A `Surface` is what the host displays of a tooltip: one element that is mounted with a style and
then shown and hidden.  It remembers what was shown last, also while it is hidden, and counts the
calls it has had.

The counters are words of 64 bits.  They are exact as long as no count needs more; the call after
the greatest count starts again at zero.
-/

namespace PlotAnnotation

/-! ### Spans of time -/

/-- A span of time, in whole seconds and the nanoseconds above them. -/
structure Duration where
  seconds : UInt64
  nanos : Fin (10 ^ 9)
deriving DecidableEq, Repr

/-- The span of a number of milliseconds. -/
def Duration.ofMillis (millis : UInt64) : Duration where
  seconds := millis / 1000
  nanos := ⟨millis.toNat % 1000 * 10 ^ 6, by omega⟩

/-! ### The element on the page -/

/-- The element of a tooltip as displayed, and the calls that made it so. -/
structure Surface where
  mountCount : UInt64 := 0
  style : Option TooltipStyle := none
  visible : Bool := false
  text : Option String := none
  html : Option String := none
  position : Option Position := none
  /-- The time it was given to fade in. -/
  fadeIn : Option Duration := none
  showCount : UInt64 := 0
  hideCount : UInt64 := 0
deriving DecidableEq, Repr

namespace Surface

/-- Creates the element, hidden. -/
def mount (s : Surface) (style : TooltipStyle) : Surface :=
  { s with mountCount := s.mountCount + 1, style := some style, visible := false }

/-- Sets content and place and fades the element in. -/
def display (s : Surface) (content : TooltipContent) (position : Position) (fadeIn : Duration) :
    Surface :=
  { s with
    text := some content.text
    html := some content.html
    position := some position
    fadeIn := some fadeIn
    visible := true
    showCount := s.showCount + 1 }

/-- Hides the element. -/
def hide (s : Surface) : Surface :=
  { s with visible := false, hideCount := s.hideCount + 1 }

end Surface

end PlotAnnotation
