import PlotAnnotation.Canvas.Frame
import PlotAnnotation.Proofs.Decimal.Label
import PlotAnnotation.Proofs.Decimal.Order
import PlotAnnotation.Proofs.Fault.Requirements

/-!
# Frames that can be drawn

A frame can be drawn if its canvas has an area and each text on it has characters, a place, a size
and a color (`Frame.IsDrawable`).  The same as a list of requirements, in the order of the checks,
is `Frame.requirements`: the canvas first, then text after text, and for each text its characters,
its place, its size and the channels of its color.  The check of a frame decides this list
(`Frame.decides_check`).
-/

namespace PlotAnnotation

open Requirement

/-- A size that can be drawn is a finite number greater than zero. -/
lemma isTextSize_iff {x : Float} : isTextSize x = true ↔ x.isFinite = true ∧ 0 < x := by
  rw [isTextSize, Bool.and_eq_true, Bool.not_eq_true', decide_eq_false_iff_not]
  refine and_congr_right fun hx => ?_
  exact Binary64.not_le_iff_lt (Binary64.isNaN_of_isFinite hx) (by decide)

/-! ### Colors -/

namespace Color

/-- A value that a channel may have. -/
def InRange (x : Float) : Prop :=
  x.isFinite = true ∧ 0 ≤ x ∧ x ≤ 1

/-- Every channel is in its range. -/
structure IsDrawable (c : Color) : Prop where
  red : InRange c.red
  green : InRange c.green
  blue : InRange c.blue
  alpha : InRange c.alpha

/-- What is asked of a channel. -/
def requirement (channel : Channel × Float) : Requirement :=
  ⟨.channel channel.1, InRange channel.2⟩

/-- What is asked of a color, channel by channel. -/
def requirements (c : Color) : List Requirement :=
  c.channels.map requirement

/-- A channel is found in range exactly if it is a number from 0 to 1. -/
lemma inRange_iff {x : Float} : inRange x = true ↔ InRange x := by
  rw [inRange, Bool.and_eq_true, Bool.and_eq_true, decide_eq_true_iff, decide_eq_true_iff,
    and_assoc]
  rfl

/-- A color can be drawn exactly if its requirements are met. -/
lemma isDrawable_iff (c : Color) : c.IsDrawable ↔ ∀ r ∈ c.requirements, r.Met := by
  simp only [requirements, channels, List.map_cons, List.map_nil, List.forall_mem_cons]
  constructor
  · rintro ⟨hred, hgreen, hblue, halpha⟩
    exact ⟨hred, hgreen, hblue, halpha, List.forall_mem_nil _⟩
  · rintro ⟨hred, hgreen, hblue, halpha, -⟩
    exact ⟨hred, hgreen, hblue, halpha⟩

/-- The check of a color goes from channel to channel. -/
lemma decides_check (c : Color) : Decides c.requirements c.check := by
  have hbad : ∀ channel ∈ c.channels, (!inRange channel.2) = true ↔ ¬(requirement channel).Met := by
    intro channel _
    rw [Bool.not_eq_true', ← Bool.not_eq_true]
    exact not_congr inRange_iff
  refine decides_find? hbad ?_ ?_
  · intro channel hfind
    rw [check, hfind]
    rfl
  · intro hfind
    rw [check, hfind]
    exact ⟨(), rfl⟩

/-- A color that can be drawn passes the check. -/
lemma IsDrawable.check_eq_ok {c : Color} (h : c.IsDrawable) : c.check = .ok () :=
  (c.decides_check.exists_ok_iff.2 (c.isDrawable_iff.1 h)).elim fun _ heq => heq

end Color

/-! ### Texts -/

namespace TextMark

/-- A text has characters, a place, a size and a color. -/
structure IsDrawable (t : TextMark) : Prop where
  text_ne_empty : t.text ≠ ""
  isFinite_x : t.x.isFinite = true
  isFinite_y : t.y.isFinite = true
  isFinite_size : t.size.isFinite = true
  size_pos : 0 < t.size
  color : t.color.IsDrawable

/-- What is asked of a text. -/
def requirements (t : TextMark) : List Requirement :=
  ⟨.emptyText, t.text ≠ ""⟩ ::
  ⟨.textPlace, t.x.isFinite = true ∧ t.y.isFinite = true⟩ ::
  ⟨.textSize, t.size.isFinite = true ∧ 0 < t.size⟩ ::
  t.color.requirements

/-- A text can be drawn exactly if its requirements are met. -/
lemma isDrawable_iff (t : TextMark) : t.IsDrawable ↔ ∀ r ∈ t.requirements, r.Met := by
  simp only [requirements, List.forall_mem_cons, ← t.color.isDrawable_iff]
  constructor
  · rintro ⟨htext, hx, hy, hfinite, hpos, hcolor⟩
    exact ⟨htext, ⟨hx, hy⟩, ⟨hfinite, hpos⟩, hcolor⟩
  · rintro ⟨htext, ⟨hx, hy⟩, ⟨hfinite, hpos⟩, hcolor⟩
    exact ⟨htext, hx, hy, hfinite, hpos, hcolor⟩

/-- The check of a text goes from its characters to its color. -/
lemma decides_check (t : TextMark) : Decides t.requirements t.check := by
  refine Decides.ite not_not.symm (Decides.ite ?_ (Decides.ite ?_ t.color.decides_check))
  · rw [Bool.not_eq_true', ← Bool.not_eq_true, Bool.and_eq_true]
  · rw [Bool.not_eq_true', ← Bool.not_eq_true, isTextSize_iff]

end TextMark

/-! ### Frames -/

/-- What is asked of a canvas. -/
def Viewport.requirement (v : Viewport) : Requirement :=
  ⟨.viewport v.width v.height, 0 < v.width ∧ 0 < v.height⟩

namespace Frame

/-- The canvas has an area, and every text on it can be drawn. -/
structure IsDrawable (f : Frame) : Prop where
  width_pos : 0 < f.viewport.width
  height_pos : 0 < f.viewport.height
  texts : ∀ t ∈ f.texts, t.IsDrawable

/-- What is asked of a frame, the canvas first. -/
def requirements (f : Frame) : List Requirement :=
  ⟨.viewport f.viewport.width f.viewport.height, 0 < f.viewport.width ∧ 0 < f.viewport.height⟩ ::
  f.texts.flatMap TextMark.requirements

/-- A frame can be drawn exactly if its requirements are met. -/
lemma isDrawable_iff (f : Frame) : f.IsDrawable ↔ ∀ r ∈ f.requirements, r.Met := by
  simp only [requirements, List.forall_mem_cons, List.forall_mem_flatMap,
    ← TextMark.isDrawable_iff]
  constructor
  · rintro ⟨hwidth, hheight, htexts⟩
    exact ⟨⟨hwidth, hheight⟩, htexts⟩
  · rintro ⟨⟨hwidth, hheight⟩, htexts⟩
    exact ⟨hwidth, hheight, htexts⟩

/-- The check of a frame goes from the canvas to the last text, whatever the checks of the texts
decide. -/
lemma decides_check_of {f : Frame} {reqs : TextMark → List Requirement}
    (h : ∀ t ∈ f.texts, Decides (reqs t) t.check) :
    Decides (f.viewport.requirement :: f.texts.flatMap reqs) f.check := by
  have hswap : f.check = if ¬f.viewport.IsValid then
      .error (.viewport f.viewport.width f.viewport.height) else f.texts.forM TextMark.check := by
    rw [check, ite_not]
  rw [hswap]
  exact Decides.ite Iff.rfl (decides_forM h)

/-- The check of a frame decides its requirements. -/
lemma decides_check (f : Frame) : Decides f.requirements f.check :=
  decides_check_of fun t _ => t.decides_check

end Frame

end PlotAnnotation
