import Mathlib.Data.List.Induction
import PlotAnnotation.Canvas.Recorder
import PlotAnnotation.Proofs.Canvas.Drawable

/-!
# What a recorder remembers

A recorder that stays with its host is given one pass after the other.  What one pass does to it is
`drawOn_cases`: either the frame of the pass is drawn, and the recorder holds its texts and their
number, or the pass is refused, and the recorder is as it was.  After any passes it therefore holds
the texts of the last frame drawn, and nothing if there was none (`Recorder.Remembers`,
`remembers_runOn`).

Whether a pass is drawn is said without the recorder: the pass has a frame, and the frame can be
drawn (`Pass.Draws`).
-/

namespace PlotAnnotation.Recorder

open Requirement

/-! ### Passes that are drawn -/

/-- A pass draws its frame, if it has one that can be drawn. -/
def Pass.Draws (pass : Pass) (frame : Frame) : Prop :=
  pass.frame? = .ok frame ∧ frame.IsDrawable

/-- The frame is the last one that is drawn in passes. -/
def LastDrawn (passes : List Pass) (frame : Frame) : Prop :=
  ∃ before pass after, passes = before ++ pass :: after ∧ pass.Draws frame ∧
    ∀ later ∈ after, ∀ f, ¬later.Draws f

/-- The recorder holds the texts of the last frame that is drawn in passes. -/
structure Remembers (r : Recorder) (passes : List Pass) : Prop where
  texts_of_last : ∀ frame, LastDrawn passes frame → r.texts = frame.texts.map TextMark.text
  texts_of_none : (∀ pass ∈ passes, ∀ frame, ¬pass.Draws frame) → r.texts = []
  count_eq : r.count = r.texts.length
  text_ne_empty : ∀ text ∈ r.texts, text ≠ ""

variable {r : Recorder} {passes : List Pass} {pass : Pass} {frame : Frame}

/-- A pass draws one frame only. -/
lemma Pass.Draws.unique {frame' : Frame} (h : pass.Draws frame) (h' : pass.Draws frame') :
    frame = frame' :=
  Except.ok.inj (h.1.symm.trans h'.1)

/-- The last frame is that of the last pass, or if this draws none, the last one before. -/
lemma lastDrawn_append_singleton :
    LastDrawn (passes ++ [pass]) frame ↔
      pass.Draws frame ∨ (∀ f, ¬pass.Draws f) ∧ LastDrawn passes frame := by
  constructor
  · rintro ⟨before, p, after, heq, hp, hafter⟩
    rcases List.eq_nil_or_concat after with rfl | ⟨after, last, rfl⟩
    · obtain ⟨rfl, rfl⟩ := List.append_singleton_inj.1 heq
      exact .inl hp
    · rw [List.concat_eq_append, ← List.cons_append, ← List.append_assoc] at heq
      obtain ⟨rfl, rfl⟩ := List.append_singleton_inj.1 heq
      refine .inr ⟨hafter pass (by simp), before, p, after, rfl, hp, ?_⟩
      exact fun later hlater => hafter later (by simp [hlater])
  · rintro (hpass | ⟨hpass, before, p, after, rfl, hp, hafter⟩)
    · exact ⟨passes, pass, [], rfl, hpass, List.forall_mem_nil _⟩
    · refine ⟨before, p, after ++ [pass], by simp, hp, ?_⟩
      intro later hlater
      rcases List.mem_append.1 hlater with hlater | hlater
      · exact hafter later hlater
      · rwa [List.mem_singleton.1 hlater]

/-! ### One pass -/

/-- A pass with a frame is taken as the frame is. -/
lemma draw_of_frame? (hframe : pass.frame? = .ok frame) (r : Recorder) :
    r.draw pass = (r.render frame).map (frame, ·) := by
  rw [draw, hframe]
  rfl

/-- A pass is drawn and its texts are written down, or it draws nothing and is refused. -/
lemma draw_cases (pass : Pass) (r : Recorder) :
    (∃ frame, pass.Draws frame ∧
      r.draw pass = .ok (frame, ⟨frame.texts.length, frame.texts.map TextMark.text⟩)) ∨
    ∃ fault, (∀ frame, ¬pass.Draws frame) ∧ r.draw pass = .error fault := by
  cases hframe : pass.frame? with
  | error fault =>
    refine .inr ⟨fault, ?_, by rw [draw, hframe]; rfl⟩
    rintro frame ⟨heq, -⟩
    rw [hframe] at heq
    contradiction
  | ok frame =>
    have hdecides := frame.decides_check
    rw [draw_of_frame? hframe, render]
    cases hcheck : frame.check with
    | ok u =>
      rw [hcheck] at hdecides
      exact .inl ⟨frame, ⟨hframe, frame.isDrawable_iff.2 hdecides⟩, rfl⟩
    | error fault =>
      rw [hcheck] at hdecides
      refine .inr ⟨fault, ?_, rfl⟩
      rintro frame' ⟨heq, hdrawable⟩
      obtain rfl : frame = frame' := Except.ok.inj (hframe.symm.trans heq)
      exact hdecides.not_forall (frame.isDrawable_iff.1 hdrawable)

/-- On a recorder of the host a pass does the same as on one that is handed back. -/
lemma run_drawOn (pass : Pass) (r : Recorder) :
    (drawOn pass).run.run r = ((r.draw pass).map Prod.fst, r.next pass) := by
  cases hframe : pass.frame? with
  | error fault =>
    rw [next, draw, drawOn, hframe]
    rfl
  | ok frame =>
    have hrun : (drawOn pass).run.run r =
        (ExceptT.run (do renderOn frame; return frame)).run r := by
      rw [drawOn, hframe]
      rfl
    rw [hrun, next, draw_of_frame? hframe, render, renderOn]
    cases frame.check with
    | ok u => rfl
    | error fault => rfl

/-- A pass on a recorder of the host is drawn and its texts are written down, or it draws nothing
and leaves no trace. -/
lemma drawOn_cases (pass : Pass) (r : Recorder) :
    (∃ frame, pass.Draws frame ∧ (drawOn pass).run.run r =
      (.ok frame, ⟨frame.texts.length, frame.texts.map TextMark.text⟩)) ∨
    ∃ fault, (∀ frame, ¬pass.Draws frame) ∧ (drawOn pass).run.run r = (.error fault, r) := by
  rw [run_drawOn, next]
  rcases draw_cases pass r with ⟨frame, hdraws, hdraw⟩ | ⟨fault, hnone, hdraw⟩
  · rw [hdraw]
    exact .inl ⟨frame, hdraws, rfl⟩
  · rw [hdraw]
    exact .inr ⟨fault, hnone, rfl⟩

/-- A frame that passes the check is written down, and one that does not leaves no trace. -/
lemma renderOn_cases (frame : Frame) (r : Recorder) :
    (frame.check = .ok () ∧ (renderOn frame).run.run r =
      (.ok (), ⟨frame.texts.length, frame.texts.map TextMark.text⟩)) ∨
    ∃ fault, frame.check = .error fault ∧ (renderOn frame).run.run r = (.error fault, r) := by
  unfold renderOn
  cases frame.check with
  | ok u => exact .inl ⟨rfl, rfl⟩
  | error fault => exact .inr ⟨fault, rfl, rfl⟩

/-- A frame is taken exactly if it can be drawn. -/
lemma fst_renderOn_eq_ok_iff : ((renderOn frame).run.run r).1 = .ok () ↔ frame.IsDrawable := by
  rw [frame.isDrawable_iff, ← frame.decides_check.exists_ok_iff]
  rcases renderOn_cases frame r with ⟨hcheck, hrun⟩ | ⟨fault, hcheck, hrun⟩
  · rw [hrun]
    exact iff_of_true rfl ⟨(), hcheck⟩
  · rw [hrun, hcheck]
    simp

/-- A frame is refused for its first fault. -/
lemma fst_renderOn_eq_error_iff {fault : Fault} :
    ((renderOn frame).run.run r).1 = .error fault ↔ FirstFault frame.requirements fault := by
  rw [← frame.decides_check.eq_error_iff]
  rcases renderOn_cases frame r with ⟨hcheck, hrun⟩ | ⟨fault', hcheck, hrun⟩
  · rw [hrun, hcheck]
  · rw [hrun, hcheck, Except.error.injEq]

/-- A pass gives a frame exactly if it draws it. -/
lemma fst_drawOn_eq_ok_iff : ((drawOn pass).run.run r).1 = .ok frame ↔ pass.Draws frame := by
  rcases drawOn_cases pass r with ⟨frame', hdraws, hrun⟩ | ⟨fault, hnone, hrun⟩
  · rw [hrun, Except.ok.injEq]
    exact ⟨fun heq => heq ▸ hdraws, hdraws.unique⟩
  · rw [hrun]
    exact iff_of_false (by simp) (hnone frame)

/-! ### Passes in turn -/

/-- A new recorder remembers no passes. -/
lemma remembers_nil : Remembers {} [] where
  texts_of_last := by
    rintro frame ⟨before, pass, after, heq, -⟩
    exact absurd heq.symm (by simp)
  texts_of_none _ := rfl
  count_eq := rfl
  text_ne_empty := List.forall_mem_nil _

/-- After a pass that is drawn, its texts are remembered. -/
lemma remembers_of_draws (hdraws : pass.Draws frame) :
    Remembers ⟨frame.texts.length, frame.texts.map TextMark.text⟩ (passes ++ [pass]) where
  texts_of_last := by
    intro frame' hlast
    rcases lastDrawn_append_singleton.1 hlast with hdraws' | ⟨hnone, -⟩
    · rw [hdraws.unique hdraws']
    · exact absurd hdraws (hnone frame)
  texts_of_none hnone := absurd hdraws (hnone pass (by simp) frame)
  count_eq := (List.length_map _).symm
  text_ne_empty := List.forall_mem_map.2 fun t ht => (hdraws.2.texts t ht).text_ne_empty

/-- After a pass that draws nothing, the same is remembered as before. -/
lemma Remembers.refused (h : r.Remembers passes) (hnone : ∀ f, ¬pass.Draws f) :
    r.Remembers (passes ++ [pass]) where
  texts_of_last := by
    intro frame hlast
    rcases lastDrawn_append_singleton.1 hlast with hdraws | ⟨-, hlast⟩
    · exact absurd hdraws (hnone frame)
    · exact h.texts_of_last frame hlast
  texts_of_none hall := h.texts_of_none fun p hp => hall p (List.mem_append_left _ hp)
  count_eq := h.count_eq
  text_ne_empty := h.text_ne_empty

/-- One more pass is drawn on what the passes before it left. -/
lemma snd_runOn_append_singleton (passes : List Pass) (pass : Pass) (r : Recorder) :
    ((runOn (passes ++ [pass])).run r).2 =
      ((drawOn pass).run.run ((runOn passes).run r).2).2 := by
  unfold runOn
  rw [List.mapM_append]
  rfl

/-- Whatever passes a new recorder is given, it remembers the last one drawn. -/
lemma remembers_runOn (passes : List Pass) : ((runOn passes).run {}).2.Remembers passes := by
  induction passes using List.reverseRecOn with
  | nil => exact remembers_nil
  | append_singleton passes pass ih =>
    rw [snd_runOn_append_singleton]
    rcases drawOn_cases pass ((runOn passes).run {}).2 with ⟨frame, hdraws, hrun⟩ | ⟨_, hnone, hrun⟩
    · rw [hrun]
      exact remembers_of_draws hdraws
    · rw [hrun]
      exact ih.refused hnone

/-- Passes on a recorder of the host end as they do on one that is handed back. -/
lemma snd_runOn (passes : List Pass) (r : Recorder) :
    ((runOn passes).run r).2 = r.run passes := by
  induction passes using List.reverseRecOn with
  | nil => rfl
  | append_singleton passes pass ih =>
    rw [snd_runOn_append_singleton, ih, run_drawOn, run, run, List.foldl_append]
    rfl

/-- **What a recorder holds.**  Whatever passes a new recorder is given, it holds the texts of the
last frame drawn, none of them empty, and their number, and so does one that each pass hands back.
A pass gives a frame exactly if it draws it, and leaves no trace if it is refused.  A frame by
itself is taken if it can be drawn, and is otherwise refused for its first fault, that of the canvas
before those of the texts. -/
theorem runOn_outcome (passes : List Pass) :
    ((runOn passes).run {}).2.Remembers passes ∧
    ((runOn passes).run {}).2 = run {} passes ∧
    (∀ r pass, (drawOn pass).run.run r = ((r.draw pass).map Prod.fst, r.next pass)) ∧
    (∀ r pass frame, ((drawOn pass).run.run r).1 = .ok frame ↔ pass.Draws frame) ∧
    (∀ r pass fault after, (drawOn pass).run.run r = (.error fault, after) → after = r) ∧
    (∀ r frame, ((renderOn frame).run.run r).1 = .ok () ↔ frame.IsDrawable) ∧
    ∀ r frame fault, ((renderOn frame).run.run r).1 = .error fault ↔
      FirstFault frame.requirements fault := by
  refine ⟨remembers_runOn passes, snd_runOn passes {}, fun r pass => run_drawOn pass r, ?_, ?_, ?_,
    ?_⟩
  · intro r pass frame
    exact fst_drawOn_eq_ok_iff
  · intro r pass fault after hrefused
    rcases drawOn_cases pass r with ⟨frame, -, hrun⟩ | ⟨_, -, hrun⟩
    · rw [hrun, Prod.mk.injEq] at hrefused
      exact absurd hrefused.1 (by simp)
    · rw [hrun, Prod.mk.injEq] at hrefused
      exact hrefused.2.symm
  · intro r frame
    exact fst_renderOn_eq_ok_iff
  · intro r frame fault
    exact fst_renderOn_eq_error_iff

end PlotAnnotation.Recorder
