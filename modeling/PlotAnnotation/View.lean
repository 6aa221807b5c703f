import PlotAnnotation.BarNumbers
import PlotAnnotation.Hover.Session
import PlotAnnotation.Options

/-!
# Views of graphs

A `View` is one graph that answers hovering: its options and the session of its tooltip.  It starts
only if every data point has a value, so that a hover by index never shows one without.

The engine options may configure numbers over bars, at `series.bars.numbers` or, where that is not
there, at `bars.numbers`.
-/

namespace PlotAnnotation

open Json

/-- A graph that answers hovering. -/
structure View where
  options : GraphOptions
  session : Session

namespace View

/-- Starts a view on a surface, unless a data point has no value. -/
def start (options : GraphOptions) (surface : Surface) (locales : LocaleTable) :
    Except Fault View :=
  match options.data.findIdx? (·.value.isNaN) with
  | some index => .error (.valueNaN index)
  | none => .ok ⟨options, Session.start surface options.hoverConfig locales⟩

/-- Starts a view on a surface that stays with the host, also if a data point has no value.  The
calls on the surface are made in turn. -/
def startOn (options : GraphOptions) (locales : LocaleTable) :
    StateM Surface (Except Fault View) := do
  match options.data.findIdx? (·.value.isNaN) with
  | some index => return .error (.valueNaN index)
  | none => return .ok ⟨options, ← Session.startOn options.hoverConfig locales⟩

/-- Answers a hover. -/
def hover (v : View) (event : HoverEvent) : View :=
  { v with session := v.session.hover event }

/-- The data point at an index; none past the end. -/
def point? (v : View) (index : Option Nat) : Option DataPoint :=
  index.bind fun i => v.options.data[i]?

/-- Answers a hover over the data point at an index. -/
def hoverIndex (v : View) (index : Option Nat) (position : Position) : View :=
  v.hover { position, point := v.point? index }

/-- What a view is told of the pointer. -/
inductive Event where
  | hover (event : HoverEvent)
  | index (index : Option Nat) (position : Position)
deriving DecidableEq, Repr

/-- The view after an event. -/
def apply (v : View) : Event → View
  | .hover event => v.hover event
  | .index index position => v.hoverIndex index position

/-- The view after events. -/
def run (v : View) (events : List Event) : View :=
  events.foldl apply v

/-- The engine options for numbers over bars. -/
def barNumbersValue? (config : Object) : Option Value :=
  (config.toValue.at? ["series", "bars", "numbers"]).or (config.toValue.at? ["bars", "numbers"])

/-- The configuration of the numbers over bars, if there is any. -/
def barNumbers? (v : View) : Except Fault (Option BarNumbersConfig) :=
  match barNumbersValue? v.options.config with
  | none => .ok none
  | some value =>
    match Json.ofValue? value with
    | some config => .ok (some config)
    | none => .error .barNumbers

end View

end PlotAnnotation
