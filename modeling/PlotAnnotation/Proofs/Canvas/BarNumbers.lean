import PlotAnnotation.Proofs.Canvas.Memory

/-!
# Numbers over bars, placed and drawn

The bars with a finite value have one label each, in their order (`Placed`).  Whether there are
labels at all is decided by the configuration alone, which is checked also where nothing is shown.

The labels are checked again when they are drawn, but of all that is asked of a text only the place
can be missing: the text of a number is not empty, and size and color were checked before
(`IsMark.decides_check`).  So the requirements of a drawing are those of the configuration, then the
canvas, then the place of one label after the other (`decides_draw`).
-/

namespace PlotAnnotation

open Recorder Requirement

/-! ### Configurations -/

namespace BarNumbersConfig

variable {c : BarNumbersConfig}

/-- The size and the color can be drawn. -/
structure IsDrawable (c : BarNumbersConfig) : Prop where
  isFinite_size : c.size.isFinite = true
  size_pos : 0 < c.size
  color : c.color.IsDrawable

/-- What is asked of a configuration, the size before the color. -/
def requirements (c : BarNumbersConfig) : List Requirement :=
  ⟨.barNumberSize, c.size.isFinite = true ∧ 0 < c.size⟩ :: c.color.requirements

/-- The distance from the top is the one that is configured, if it is finite and not zero, and
otherwise 3. -/
def Applies (c : BarNumbersConfig) (distance : Float) : Prop :=
  c.top = some distance ∧ distance.isFinite = true ∧ (distance == 0) = false ∨
    distance = 3 ∧ ∀ top, c.top = some top → top.isFinite = true → (top == 0) = true

/-- A configuration can be drawn exactly if its requirements are met. -/
lemma isDrawable_iff : c.IsDrawable ↔ ∀ r ∈ c.requirements, r.Met := by
  rw [requirements, List.forall_mem_cons, ← c.color.isDrawable_iff]
  constructor
  · rintro ⟨hfinite, hpos, hcolor⟩
    exact ⟨⟨hfinite, hpos⟩, hcolor⟩
  · rintro ⟨⟨hfinite, hpos⟩, hcolor⟩
    exact ⟨hfinite, hpos, hcolor⟩

/-- The check of a configuration decides its requirements. -/
lemma decides_check (c : BarNumbersConfig) : Decides c.requirements c.check := by
  have hswap : c.check = if ¬isTextSize c.size = true then .error .barNumberSize
      else c.color.check := by
    rw [check, ite_not]
  rw [hswap]
  exact Decides.ite (not_congr isTextSize_iff) c.color.decides_check

/-- What follows the check is reached exactly if the configuration can be drawn. -/
lemma check_map_eq_ok_iff {α : Type} {a b : α} :
    (c.check.map fun _ => a) = .ok b ↔ c.IsDrawable ∧ b = a := by
  rw [c.isDrawable_iff, ← c.decides_check.exists_ok_iff]
  cases c.check with
  | ok u => simp [Except.map, eq_comm]
  | error fault => simp [Except.map]

/-- One distance is applied. -/
lemma applies_iff {distance : Float} : c.Applies distance ↔ distance = c.distance := by
  unfold Applies BarNumbersConfig.distance
  cases c.top with
  | none => simp
  | some top =>
    by_cases h : (top != 0 && top.isFinite) = true
    · have ⟨hne, hfinite⟩ : (top == 0) = false ∧ top.isFinite = true := by
        simpa [bne] using h
      simp only [if_pos h, Option.some.injEq]
      constructor
      · rintro (⟨rfl, -⟩ | ⟨-, hzero⟩)
        · rfl
        · rw [hzero top rfl hfinite] at hne
          contradiction
      · rintro rfl
        exact .inl ⟨rfl, hfinite, hne⟩
    · have hzero : top.isFinite = true → (top == 0) = true := by
        simpa [bne, imp_iff_or_not, or_comm] using h
      simp only [if_neg h, Option.some.injEq]
      constructor
      · rintro (⟨rfl, hfinite, hne⟩ | ⟨rfl, -⟩)
        · rw [hzero hfinite] at hne
          contradiction
        · rfl
      · rintro rfl
        refine .inr ⟨rfl, ?_⟩
        rintro _ rfl
        exact hzero

end BarNumbersConfig

/-! ### Labels -/

/-- What is asked of the place of a text. -/
def TextMark.placement (t : TextMark) : Requirement :=
  ⟨.textPlace, t.x.isFinite = true ∧ t.y.isFinite = true⟩

namespace BarNumbers

variable {offset : PlotOffset} {c : BarNumbersConfig} {bar : Bar} {bars : List Bar} {t : TextMark}
  {texts : List TextMark}

/-- The text is the number of a bar, above its top left corner. -/
structure IsMark (offset : PlotOffset) (c : BarNumbersConfig) (bar : Bar) (t : TextMark) :
    Prop where
  text : t.text = numberLabel bar.value
  x : t.x = bar.left + offset.left
  y : ∃ distance, c.Applies distance ∧ t.y = bar.top + offset.top + distance
  size : t.size = c.size
  color : t.color = c.color

/-- The texts are the numbers of the bars with a finite value, in the order of the bars. -/
inductive Placed (offset : PlotOffset) (c : BarNumbersConfig) : List Bar → List TextMark → Prop
  | nil : Placed offset c [] []
  | mark {bar : Bar} {bars : List Bar} {t : TextMark} {texts : List TextMark}
      (hvalue : bar.value.isFinite = true) (ht : IsMark offset c bar t)
      (rest : Placed offset c bars texts) : Placed offset c (bar :: bars) (t :: texts)
  | skip {bar : Bar} {bars : List Bar} {texts : List TextMark}
      (hvalue : bar.value.isFinite = false) (rest : Placed offset c bars texts) :
      Placed offset c (bar :: bars) texts

/-- The texts are the numbers over the bars if they are shown, and there are none otherwise. -/
structure Labels (offset : PlotOffset) (c : BarNumbersConfig) (bars : List Bar)
    (texts : List TextMark) : Prop where
  shown : c.shown = true → Placed offset c bars texts
  hidden : c.shown = false → texts = []

/-- A bar has one number. -/
lemma isMark_iff : IsMark offset c bar t ↔ t = mark offset c bar := by
  constructor
  · rintro ⟨htext, hx, ⟨distance, hdistance, hy⟩, hsize, hcolor⟩
    rw [BarNumbersConfig.applies_iff] at hdistance
    cases t
    simp_all [mark]
  · rintro rfl
    exact ⟨rfl, rfl, ⟨_, BarNumbersConfig.applies_iff.2 rfl, rfl⟩, rfl, rfl⟩

/-- Bars have their numbers in one way. -/
lemma placed_iff : Placed offset c bars texts ↔
    texts = (bars.filter (·.value.isFinite)).map (mark offset c) := by
  constructor
  · intro h
    induction h with
    | nil => rfl
    | mark hvalue ht rest ih =>
      rw [List.filter_cons, if_pos hvalue, List.map_cons, ih, isMark_iff.1 ht]
    | skip hvalue rest ih => rw [List.filter_cons, if_neg (Bool.eq_false_iff.1 hvalue), ih]
  · rintro rfl
    induction bars with
    | nil => exact .nil
    | cons bar bars ih =>
      rcases Bool.eq_false_or_eq_true bar.value.isFinite with hvalue | hvalue
      · rw [List.filter_cons, if_pos hvalue]
        exact .mark hvalue (isMark_iff.2 rfl) ih
      · rw [List.filter_cons, if_neg (Bool.eq_false_iff.1 hvalue)]
        exact .skip hvalue ih

/-- The labels are the marks of the finite bars in order, and none if they are not shown. -/
lemma labels_iff : Labels offset c bars texts ↔
    texts = if c.shown then (bars.filter (·.value.isFinite)).map (mark offset c) else [] := by
  constructor
  · rintro ⟨hshown, hhidden⟩
    split
    · next h => exact placed_iff.1 (hshown h)
    · next h => exact hhidden (Bool.eq_false_iff.2 h)
  · rintro rfl
    constructor
    · intro h
      rw [if_pos h, placed_iff]
    · intro h
      rw [if_neg (Bool.eq_false_iff.1 h)]

/-- Each of the texts placed is the mark of a bar. -/
lemma Placed.exists_isMark (h : Placed offset c bars texts) :
    ∀ t ∈ texts, ∃ bar ∈ bars, IsMark offset c bar t := by
  induction h with
  | nil => exact List.forall_mem_nil _
  | mark hvalue ht rest ih =>
    refine List.forall_mem_cons.2 ⟨⟨_, List.mem_cons_self, ht⟩, fun t hmem => ?_⟩
    obtain ⟨bar, hbar, ht⟩ := ih t hmem
    exact ⟨bar, List.mem_cons_of_mem _ hbar, ht⟩
  | skip hvalue rest ih =>
    intro t hmem
    obtain ⟨bar, hbar, ht⟩ := ih t hmem
    exact ⟨bar, List.mem_cons_of_mem _ hbar, ht⟩

/-- Any bars have labels. -/
lemma exists_labels (offset : PlotOffset) (c : BarNumbersConfig) (bars : List Bar) :
    ∃ texts, Labels offset c bars texts :=
  ⟨_, labels_iff.2 rfl⟩

/-- Every label is the number of a bar. -/
lemma Labels.exists_isMark (h : Labels offset c bars texts) (ht : t ∈ texts) :
    ∃ bar ∈ bars, IsMark offset c bar t := by
  cases hshown : c.shown with
  | true => exact (h.shown hshown).exists_isMark t ht
  | false =>
    rw [h.hidden hshown] at ht
    contradiction

/-! ### Placing -/

/-- The configuration is checked, and the labels are placed. -/
lemma place_eq (h : Labels offset c bars texts) :
    place bars offset c = c.check.map fun _ => texts := by
  rw [labels_iff.1 h, place]
  cases c.check with
  | error fault => rfl
  | ok u => cases c.shown <;> rfl

/-- Of all that is asked of a text, the number of a bar can only lack its place. -/
lemma IsMark.decides_check (h : IsMark offset c bar t) (hc : c.IsDrawable) :
    Decides [t.placement] t.check := by
  refine t.decides_check.of_met (List.forall_mem_singleton.2 ?_) (List.forall_mem_cons.2 ⟨?_, ?_⟩)
  · exact h.text ▸ numberLabel_ne_empty bar.value
  · exact h.size ▸ ⟨hc.isFinite_size, hc.size_pos⟩
  · exact h.color ▸ c.color.isDrawable_iff.1 hc.color

/-! ### Drawing -/

/-- What is asked of a drawing: the configuration, the canvas, and the place of each label. -/
def requirements (viewport : Viewport) (c : BarNumbersConfig) (texts : List TextMark) :
    List Requirement :=
  c.requirements ++ viewport.requirement :: texts.map TextMark.placement

variable (viewport : Viewport)

/-- A frame of bar numbers has the labels on its canvas, if the check is passed. -/
lemma frame_eq (h : Labels offset c bars texts) :
    frame viewport bars offset c = c.check.map fun _ => ⟨viewport, texts⟩ := by
  rw [frame, place_eq h]
  cases c.check <;> rfl

/-- There is a frame exactly if the configuration can be drawn. -/
lemma frame_eq_ok_iff (h : Labels offset c bars texts) {f : Frame} :
    frame viewport bars offset c = .ok f ↔ c.IsDrawable ∧ f = ⟨viewport, texts⟩ := by
  rw [frame_eq viewport h, BarNumbersConfig.check_map_eq_ok_iff]

/-- A drawing goes from the configuration to the last label. -/
lemma decides_draw (h : Labels offset c bars texts) (r : Recorder) :
    Decides (requirements viewport c texts) (r.draw (.barNumbers viewport bars offset c)) := by
  have hframe : Decides c.requirements (frame viewport bars offset c) := by
    rw [frame_eq viewport h]
    exact c.decides_check.map _
  refine hframe.bind fun f hf => ?_
  obtain ⟨hc, rfl⟩ := (frame_eq_ok_iff viewport h).1 hf
  have hcheck : Decides (viewport.requirement :: texts.map TextMark.placement)
      (Frame.check ⟨viewport, texts⟩) := by
    rw [List.map_eq_flatMap]
    refine Frame.decides_check_of fun t ht => ?_
    obtain ⟨bar, -, hmark⟩ := h.exists_isMark ht
    exact hmark.decides_check hc
  rw [Recorder.render]
  revert hcheck
  cases Frame.check ⟨viewport, texts⟩ with
  | ok u => exact id
  | error fault => exact id

/-- The drawing succeeds if the configuration, the canvas and every place can be drawn. -/
lemma forall_requirements_iff : (∀ r ∈ requirements viewport c texts, r.Met) ↔
    c.IsDrawable ∧ (0 < viewport.width ∧ 0 < viewport.height) ∧
      ∀ t ∈ texts, t.x.isFinite = true ∧ t.y.isFinite = true := by
  rw [requirements, List.forall_mem_append, List.forall_mem_cons, List.forall_mem_map,
    ← c.isDrawable_iff]
  rfl

/-- The labels are drawn and written down, or the drawing is refused for its first fault and leaves
no trace. -/
lemma drawOn_cases (h : Labels offset c bars texts) (r : Recorder) :
    ((∀ q ∈ requirements viewport c texts, q.Met) ∧
      (drawOn (.barNumbers viewport bars offset c)).run.run r =
        (.ok ⟨viewport, texts⟩, ⟨texts.length, texts.map TextMark.text⟩)) ∨
    ∃ fault, FirstFault (requirements viewport c texts) fault ∧
      (drawOn (.barNumbers viewport bars offset c)).run.run r = (.error fault, r) := by
  have hdecides := decides_draw viewport h r
  rw [run_drawOn, next]
  rcases draw_cases (.barNumbers viewport bars offset c) r with
    ⟨f, hdraws, hdraw⟩ | ⟨fault, -, hdraw⟩
  · obtain ⟨-, rfl⟩ := (frame_eq_ok_iff viewport h).1 hdraws.1
    rw [hdraw] at hdecides ⊢
    exact .inl ⟨hdecides, rfl⟩
  · rw [hdraw] at hdecides ⊢
    exact .inr ⟨fault, hdecides, rfl⟩

/-- Drawing succeeds exactly if all requirements are met, and remembers the texts. -/
lemma run_drawOn_eq_ok_iff (h : Labels offset c bars texts) {r after : Recorder} {f : Frame} :
    (drawOn (.barNumbers viewport bars offset c)).run.run r = (.ok f, after) ↔
      (∀ q ∈ requirements viewport c texts, q.Met) ∧ f = ⟨viewport, texts⟩ ∧
        after = ⟨texts.length, texts.map TextMark.text⟩ := by
  rcases drawOn_cases viewport h r with ⟨hmet, hrun⟩ | ⟨fault, hfault, hrun⟩
  · rw [hrun, Prod.mk.injEq, Except.ok.injEq, eq_comm, @eq_comm _ _ after, and_iff_right hmet]
  · rw [hrun, Prod.mk.injEq]
    exact iff_of_false (by simp) fun hmet => hfault.not_forall hmet.1

/-- Drawing fails exactly for the first fault, and leaves the memory as it was. -/
lemma run_drawOn_eq_error_iff (h : Labels offset c bars texts) {r after : Recorder}
    {fault : Fault} :
    (drawOn (.barNumbers viewport bars offset c)).run.run r = (.error fault, after) ↔
      FirstFault (requirements viewport c texts) fault ∧ after = r := by
  rcases drawOn_cases viewport h r with ⟨hmet, hrun⟩ | ⟨fault', hfault, hrun⟩
  · rw [hrun, Prod.mk.injEq]
    exact iff_of_false (by simp) fun hfault => hfault.1.not_forall hmet
  · rw [hrun, Prod.mk.injEq, Except.error.injEq, @eq_comm _ r]
    refine and_congr_left fun _ => ⟨?_, hfault.unique⟩
    rintro rfl
    exact hfault

/-- Bars without a finite value have no part in the labels. -/
lemma place_filter (bars : List Bar) (offset : PlotOffset) (c : BarNumbersConfig) :
    place (bars.filter (·.value.isFinite)) offset c = place bars offset c := by
  unfold place
  rw [List.filter_filter]
  simp only [Bool.and_self]

/-- Where the configuration can be drawn, only the canvas or a place is refused. -/
lemma fault_of_isDrawable {fault : Fault} (hc : c.IsDrawable)
    (h : FirstFault (requirements viewport c texts) fault) :
    fault = .viewport viewport.width viewport.height ∨ fault = .textPlace := by
  rcases firstFault_append.1 h with h | ⟨-, h⟩
  · exact absurd (c.isDrawable_iff.1 hc) h.not_forall
  rcases firstFault_cons.1 h with ⟨-, rfl⟩ | ⟨-, h⟩
  · exact .inl rfl
  · obtain ⟨_, t, _, -, -, -, rfl⟩ := firstFault_map.1 h
    exact .inr rfl

/-- **Numbers over bars.**  They are placed unless the configuration is refused, shown or not, and
are then one label for each bar with a finite value, in the order of the bars, or none if they are
not shown.  They are drawn exactly if moreover the canvas has an area and each label has a place;
otherwise the drawing is refused for the first thing that is missing, first the size, then the
channels of the color, the canvas and the places in order.  A label can lack nothing else, and bars
without a finite value have no part in any of this. -/
theorem place_and_draw_outcome (bars : List Bar) (offset : PlotOffset) (c : BarNumbersConfig) :
    ∃ texts, Labels offset c bars texts ∧
      ((∃ fault, place bars offset c = .error fault) ↔ ¬c.IsDrawable) ∧
      (∀ fault, place bars offset c = .error fault ↔ FirstFault c.requirements fault) ∧
      (∀ ts, place bars offset c = .ok ts ↔ c.IsDrawable ∧ ts = texts) ∧
      (∀ viewport r f after,
        (drawOn (.barNumbers viewport bars offset c)).run.run r = (.ok f, after) ↔
          (c.IsDrawable ∧ (0 < viewport.width ∧ 0 < viewport.height) ∧
            ∀ t ∈ texts, t.x.isFinite = true ∧ t.y.isFinite = true) ∧
          f = ⟨viewport, texts⟩ ∧ after = ⟨texts.length, texts.map TextMark.text⟩) ∧
      (∀ viewport r fault after,
        (drawOn (.barNumbers viewport bars offset c)).run.run r = (.error fault, after) ↔
          FirstFault (requirements viewport c texts) fault ∧ after = r) ∧
      (∀ viewport fault, FirstFault (requirements viewport c texts) fault → c.IsDrawable →
        fault = .viewport viewport.width viewport.height ∨ fault = .textPlace) ∧
      (∀ t ∈ texts, c.IsDrawable → (t.IsDrawable ↔ t.x.isFinite = true ∧ t.y.isFinite = true)) ∧
      ∀ viewport, drawOn (.barNumbers viewport (bars.filter (·.value.isFinite)) offset c) =
        drawOn (.barNumbers viewport bars offset c) := by
  obtain ⟨texts, h⟩ := exists_labels offset c bars
  have hplace : Decides c.requirements (place bars offset c) := by
    rw [place_eq h]
    exact c.decides_check.map _
  refine ⟨texts, h, ?_, fun fault => hplace.eq_error_iff, fun ts => ?_,
    fun viewport r f after => ?_,
    fun viewport r fault after => run_drawOn_eq_error_iff viewport h,
    fun viewport fault hfault hc => fault_of_isDrawable viewport hc hfault, fun t ht hc => ?_,
    fun viewport => ?_⟩
  · rw [c.isDrawable_iff]
    exact hplace.exists_error_iff
  · rw [place_eq h, BarNumbersConfig.check_map_eq_ok_iff]
  · rw [run_drawOn_eq_ok_iff viewport h, forall_requirements_iff]
  · obtain ⟨bar, -, hmark⟩ := h.exists_isMark ht
    rw [t.isDrawable_iff, ← t.decides_check.exists_ok_iff, (hmark.decides_check hc).exists_ok_iff,
      List.forall_mem_singleton]
    rfl
  · have hframe : Pass.frame? (.barNumbers viewport (bars.filter (·.value.isFinite)) offset c) =
        Pass.frame? (.barNumbers viewport bars offset c) := by
      rw [Pass.frame?, Pass.frame?, frame, frame, place_filter]
    rw [drawOn, hframe, drawOn]

/-- A sum of finite coordinates may be infinite: the label is placed, but not drawn. -/
example : (Recorder.draw {} (.barNumbers ⟨10, 10⟩ [⟨1e308, 0, 5⟩] ⟨1e308, 0⟩ {})).map Prod.fst =
    .error .textPlace := by
  decide +kernel

end BarNumbers

end PlotAnnotation
