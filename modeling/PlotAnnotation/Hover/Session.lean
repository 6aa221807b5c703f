import PlotAnnotation.Hover.Config
import PlotAnnotation.Tooltip.Surface

/-!
# Hovering over a graph

A `Session` is one tooltip at work: the surface it is shown on, the composer of its labels, its
configuration, and the state that the host can ask for.  It mounts the surface once when it starts.
From then on it answers calls: a hover over a point shows the point's label and value, a hover over
no point hides the tooltip if it was shown.

The host may also hide the surface by itself, which the state does not follow, and may ask what the
tooltip of a point would say, which changes nothing.
-/

namespace PlotAnnotation

open Json

/-- A notice that the pointer is over a point, or over none. -/
structure HoverEvent where
  position : Position
  point : Option DataPoint
deriving DecidableEq, Repr

instance : Wire HoverEvent where
  toValue e := .object [("position", Wire.toValue e.position),
    ("point", (e.point.map Wire.toValue).getD .null)]
  ofTree? t := do
    let field ← fields? ["position", "point"] t
    return { position := ← (field "position").required Wire.ofTree?
             point := ← (field "point").optional Wire.ofTree? }

/-- Whether the tooltip is shown. -/
inductive HoverPhase where
  | hidden
  | shown
deriving DecidableEq, Repr

namespace HoverPhase

/-- The name of a phase. -/
def name : HoverPhase → String
  | hidden => "Hidden"
  | shown => "Shown"

/-- The phase with a name. -/
def ofName? (s : String) : Option HoverPhase :=
  [hidden, shown].find? (·.name == s)

instance : Wire HoverPhase where
  toValue p := .string p.name
  ofTree? t := t.toName?.bind ofName?

end HoverPhase

/-- The state of a tooltip that the host can ask for. -/
structure TooltipState where
  visible : Bool := false
  content : String := ""
  position : Position := {}
deriving DecidableEq, Repr

instance : Wire TooltipState where
  toValue s := .object [("visible", .bool s.visible), ("content", .string s.content),
    ("position", Wire.toValue s.position)]
  ofTree? t := do
    let field ← fields? ["visible", "content", "position"] t
    return { visible := ← (field "visible").required Tree.toBool?
             content := ← (field "content").required Tree.toText?
             position := ← (field "position").required Wire.ofTree? }

/-- One tooltip at work. -/
structure Session where
  surface : Surface
  composer : Composer
  config : HoverConfig
  state : TooltipState

namespace Session

/-- Mounts a surface and starts hidden. -/
def start (surface : Surface) (config : HoverConfig) (locales : LocaleTable) : Session where
  surface := surface.mount config.style
  composer := { locales, offset := config.utcOffset }
  config := config
  state := {}

/-- Mounts a surface that stays with the host, and starts hidden. -/
def startOn (config : HoverConfig) (locales : LocaleTable) : StateM Surface Session := do
  modify (·.mount config.style)
  return { surface := ← get
           composer := { locales, offset := config.utcOffset }
           config := config
           state := {} }

/-- Whether the tooltip is shown, as far as the session knows. -/
def phase (s : Session) : HoverPhase :=
  if s.state.visible then .shown else .hidden

/-- What the tooltip of a point says. -/
def content (s : Session) (point : DataPoint) : TooltipContent where
  label := s.composer.label point.timestamp s.config.granularity (some s.config.effectiveLanguage)
  value := point.value

/-- Shows the tooltip of a point. -/
def enter (s : Session) (position : Position) (point : DataPoint) : Session :=
  let content := s.content point
  let anchor := position.moved s.config.offset.dx s.config.offset.dy
  { s with
    surface := s.surface.display content anchor s.config.fadeIn
    state := { visible := true, content := content.text, position := anchor } }

/-- Hides the tooltip if it is shown. -/
def leave (s : Session) : Session :=
  if s.state.visible then
    { s with surface := s.surface.hide, state := { s.state with visible := false } }
  else s

/-- Answers a hover. -/
def hover (s : Session) (event : HoverEvent) : Session :=
  match event.point with
  | some point => s.enter event.position point
  | none => s.leave

/-- Hides the surface without telling the session's state. -/
def hideSurface (s : Session) : Session :=
  { s with surface := s.surface.hide }

/-- What a host may call on a session. -/
inductive Call where
  | hover (event : HoverEvent)
  | enter (position : Position) (point : DataPoint)
  | leave
  | content (point : DataPoint)
  | hideSurface
deriving DecidableEq, Repr

/-- The session after a call. -/
def apply (s : Session) : Call → Session
  | .hover event => s.hover event
  | .enter position point => s.enter position point
  | .leave => s.leave
  | .content _ => s
  | .hideSurface => s.hideSurface

/-- The session after calls. -/
def run (s : Session) (calls : List Call) : Session :=
  calls.foldl apply s

end Session

end PlotAnnotation
