import PlotAnnotation.BarNumbers

/-!
# A canvas that only remembers

A `Recorder` draws nothing.  It checks every frame it is given and remembers the texts of the last
one that passed; a frame that is refused leaves no trace.

The recorder may be handed back by every pass, or stay with its host, who has it also after a pass
that was refused.
-/

namespace PlotAnnotation

/-- The texts of the last frame, and their number. -/
structure Recorder where
  count : Nat := 0
  texts : List String := []
deriving DecidableEq, Repr

namespace Recorder

/-- Takes a frame. -/
def render (_ : Recorder) (frame : Frame) : Except Fault Recorder := do
  frame.check
  return { count := frame.texts.length, texts := frame.texts.map TextMark.text }

/-- What is drawn in one pass. -/
inductive Pass where
  /-- A frame as it is. -/
  | frame (frame : Frame)
  /-- The numbers over bars. -/
  | barNumbers (viewport : Viewport) (bars : List Bar) (offset : PlotOffset)
      (config : BarNumbersConfig)
deriving Repr

/-- The frame of a pass. -/
def Pass.frame? : Pass → Except Fault Frame
  | frame f => .ok f
  | barNumbers viewport bars offset config => BarNumbers.frame viewport bars offset config

/-- Draws a pass; gives the frame that was drawn and the recorder after it. -/
def draw (r : Recorder) (pass : Pass) : Except Fault (Frame × Recorder) := do
  let frame ← pass.frame?
  return (frame, ← r.render frame)

/-- The recorder after a pass, drawn or refused. -/
def next (r : Recorder) (pass : Pass) : Recorder :=
  match r.draw pass with
  | .ok (_, r) => r
  | .error _ => r

/-- The recorder after passes. -/
def run (r : Recorder) (passes : List Pass) : Recorder :=
  passes.foldl next r

/-! ### A recorder of the host -/

/-- Takes a frame on a recorder that stays with the host, also if the frame is refused.  Number and
texts are written in turn, after the check. -/
def renderOn (frame : Frame) : ExceptT Fault (StateM Recorder) Unit := do
  MonadExcept.ofExcept frame.check
  modify fun r => { r with count := frame.texts.length }
  modify fun r => { r with texts := frame.texts.map TextMark.text }

/-- Draws a pass on a recorder that stays with the host. -/
def drawOn (pass : Pass) : ExceptT Fault (StateM Recorder) Frame := do
  let frame ← MonadExcept.ofExcept pass.frame?
  renderOn frame
  return frame

/-- Draws passes on a recorder that stays with the host, and goes on after those refused. -/
def runOn (passes : List Pass) : StateM Recorder (List (Except Fault Frame)) :=
  passes.mapM fun pass => (drawOn pass).run

end Recorder

end PlotAnnotation
