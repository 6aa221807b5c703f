import Mathlib.Data.List.Induction
import Mathlib.Tactic.Lemma
import PlotAnnotation.Hover.Session

/-!
# What a session shows, told from its calls

A session keeps a state for the host beside the surface it draws on, and a host can hide the surface
behind the session's back.  `Follows` says of both what they must be after a list of calls, without
running anything but the calls: which hover over a point came last, whether the pointer has left
since, whether the surface was hidden since, and how many calls of each kind there were.  The calls
are added to the counters as words are, so a counter is exact as long as it does not overflow.

There are only four things a call can do (`apply_cases`).  Each keeps `Follows` for one more call
(`Follows.apply`), and so a run of any length does.
-/

namespace PlotAnnotation

/-! ### Words that count -/

/-- One more is counted. -/
lemma add_ofNat_succ (start : UInt64) (n : ℕ) : start + .ofNat (n + 1) = start + .ofNat n + 1 := by
  rw [UInt64.ofNat_add, ← UInt64.add_assoc]
  rfl

/-- A count that does not overflow is exact. -/
lemma toNat_add_ofNat {start : UInt64} {n : ℕ} (h : start.toNat + n < 2 ^ 64) :
    (start + .ofNat n).toNat = start.toNat + n := by
  rw [UInt64.toNat_add, UInt64.toNat_ofNat', Nat.add_mod_mod, Nat.mod_eq_of_lt h]

namespace Session

/-! ### Calls by what they do -/

namespace Call

/-- The place and the point of a call that hovers over a point. -/
def point? : Call → Option (Position × DataPoint)
  | .hover event => event.point.map (event.position, ·)
  | .enter position point => some (position, point)
  | _ => none

/-- A call by which the pointer leaves all points. -/
def isLeave : Call → Bool
  | .hover event => event.point.isNone
  | .leave => true
  | _ => false

/-- A call that hides the surface itself. -/
def isHide : Call → Bool
  | .hideSurface => true
  | _ => false

/-- A call that hovers over a point. -/
def isPoint (call : Call) : Bool :=
  call.point?.isSome

/-- A call about the pointer: it is over a point or it has left. -/
def isPointer (call : Call) : Bool :=
  call.isPoint || call.isLeave

end Call

/-- A call shows a point, or leaves, or hides the surface, or does nothing. -/
lemma apply_cases (s : Session) (call : Call) :
    (∃ position point, call.point? = some (position, point) ∧ call.isLeave = false ∧
      call.isHide = false ∧ s.apply call = s.enter position point) ∨
    (call.point? = none ∧ call.isLeave = true ∧ call.isHide = false ∧
      s.apply call = s.leave) ∨
    (call.point? = none ∧ call.isLeave = false ∧ call.isHide = true ∧
      s.apply call = s.hideSurface) ∨
    (call.point? = none ∧ call.isLeave = false ∧ call.isHide = false ∧ s.apply call = s) := by
  cases call with
  | hover event =>
    obtain ⟨position, point⟩ := event
    cases point with
    | none => exact .inr (.inl ⟨rfl, rfl, rfl, rfl⟩)
    | some point => exact .inl ⟨position, point, rfl, rfl, rfl, rfl⟩
  | enter position point => exact .inl ⟨position, point, rfl, rfl, rfl, rfl⟩
  | leave => exact .inr (.inl ⟨rfl, rfl, rfl, rfl⟩)
  | content point => exact .inr (.inr (.inr ⟨rfl, rfl, rfl, rfl⟩))
  | hideSurface => exact .inr (.inr (.inl ⟨rfl, rfl, rfl, rfl⟩))

/-! ### Histories -/

/-- Some call was a `p`, and none after it was a `q`. -/
def Since (p q : Call → Bool) (calls : List Call) : Prop :=
  ∃ before call after, calls = before ++ call :: after ∧ p call = true ∧
    ∀ later ∈ after, q later = false

/-- The place and the point of the last hover over a point. -/
def lastPoint? (calls : List Call) : Option (Position × DataPoint) :=
  (calls.filterMap Call.point?).getLast?

/-- How many of the calls leave while the tooltip is shown. -/
def shownLeaves (s : Session) : List Call → Nat
  | [] => 0
  | call :: calls =>
    (if call.isLeave ∧ s.phase = .shown then 1 else 0) + shownLeaves (s.apply call) calls

/-- Nothing has happened before the first call. -/
@[simp] lemma not_since_nil (p q : Call → Bool) : ¬Since p q [] := by
  rintro ⟨before, call, after, h, -⟩
  simp at h

/-- One more call is a `p` itself, or it is no `q` and leaves what was. -/
@[simp] lemma since_append_singleton {p q : Call → Bool} {calls : List Call} {call : Call} :
    Since p q (calls ++ [call]) ↔ p call = true ∨ Since p q calls ∧ q call = false := by
  constructor
  · rintro ⟨before, c, after, h, hp, hq⟩
    rcases List.eq_nil_or_concat after with rfl | ⟨after, last, rfl⟩
    · obtain ⟨rfl, rfl⟩ : calls = before ∧ call = c := by simpa using h
      exact .inl hp
    · have h' : calls ++ [call] = (before ++ c :: after) ++ [last] := by simpa using h
      obtain ⟨rfl, rfl⟩ : calls = before ++ c :: after ∧ call = last := by
        simpa only [List.append_cancel_right_eq, List.append_inj_right', List.concat_inj,
          ← List.concat_eq_append] using h'
      exact .inr ⟨⟨before, c, after, rfl, hp, fun later hl => hq later (by simp [hl])⟩,
        hq call (by simp)⟩
  · rintro (hp | ⟨⟨before, c, after, rfl, hp, hq⟩, hcall⟩)
    · exact ⟨calls, call, [], rfl, hp, by simp⟩
    · refine ⟨before, c, after ++ [call], by simp, hp, ?_⟩
      intro later hlater
      rcases List.mem_append.1 hlater with hl | hl
      · exact hq later hl
      · rw [List.mem_singleton.1 hl]
        exact hcall

/-- With fewer calls in the way it holds all the more. -/
lemma Since.mono {p q r : Call → Bool} {calls : List Call} (h : Since p r calls)
    (hqr : ∀ call, q call = true → r call = true) : Since p q calls := by
  obtain ⟨before, call, after, rfl, hp, hr⟩ := h
  refine ⟨before, call, after, rfl, hp, fun later hlater => ?_⟩
  rw [Bool.eq_false_iff]
  intro hq
  have hr' := hqr later hq
  rw [hr later hlater] at hr'
  contradiction

@[simp] lemma lastPoint?_nil : lastPoint? [] = none := rfl

/-- A hover over a point is the last one until the next. -/
@[simp] lemma lastPoint?_append_singleton (calls : List Call) (call : Call) :
    lastPoint? (calls ++ [call]) = call.point?.or (lastPoint? calls) := by
  unfold lastPoint?
  cases h : call.point? <;> simp [List.filterMap_append, h]

/-- A call over no point does not change which hover over a point was the last. -/
lemma lastPoint?_append_of_none {calls : List Call} {call : Call} (h : call.point? = none) :
    lastPoint? (calls ++ [call]) = lastPoint? calls := by
  rw [lastPoint?_append_singleton, h, Option.none_or]

@[simp] lemma run_nil (s : Session) : s.run [] = s := rfl

/-- One more call is answered after the calls before it. -/
@[simp] lemma run_append_singleton (s : Session) (calls : List Call) (call : Call) :
    s.run (calls ++ [call]) = (s.run calls).apply call := by
  simp [run]

@[simp] lemma shownLeaves_nil (s : Session) : shownLeaves s [] = 0 := rfl

/-- One more call counts if it leaves and the calls before it end shown. -/
@[simp] lemma shownLeaves_append_singleton (s : Session) (calls : List Call) (call : Call) :
    shownLeaves s (calls ++ [call]) =
      shownLeaves s calls + if call.isLeave ∧ (s.run calls).phase = .shown then 1 else 0 := by
  induction calls generalizing s with
  | nil => exact Nat.add_comm _ _
  | cons c calls ih =>
    rw [List.cons_append, shownLeaves, ih, shownLeaves, Nat.add_assoc]
    rfl

/-- A session is in the phase of showing exactly if its state says it is visible. -/
@[simp] lemma phase_eq_shown_iff (s : Session) : s.phase = .shown ↔ s.state.visible = true := by
  unfold phase
  split <;> simp_all

/-! ### The invariant -/

/-- What a session is after some calls, if it started on `surface`. -/
structure Follows (surface : Surface) (config : HoverConfig) (locales : LocaleTable)
    (calls : List Call) (s : Session) : Prop where
  config_eq : s.config = config
  composer_eq : s.composer = { locales, offset := config.utcOffset }
  /-- The surface is mounted once, at the start. -/
  mounted : s.surface.mountCount = surface.mountCount + 1
  styled : s.surface.style = some config.style
  /-- Every hover over a point is shown anew. -/
  shows : s.surface.showCount = surface.showCount + .ofNat (calls.countP Call.isPoint)
  /-- The surface is hidden by the host, and by leaving while the tooltip is shown. -/
  hides : s.surface.hideCount = surface.hideCount +
    .ofNat (calls.countP Call.isHide + shownLeaves (start surface config locales) calls)
  visible_iff : s.state.visible = true ↔ Since Call.isPoint Call.isPointer calls
  surface_visible_iff : s.surface.visible = true ↔
    Since Call.isPoint (fun call => call.isPointer || call.isHide) calls
  /-- Before the first point the state is as it started, and the surface says what it said. -/
  untouched : lastPoint? calls = none →
    s.state.content = "" ∧ s.state.position = {} ∧ s.surface.text = surface.text ∧
      s.surface.html = surface.html ∧ s.surface.position = surface.position ∧
      s.surface.fadeIn = surface.fadeIn
  /-- From then on state and surface say the same of the last point. -/
  agree : ∀ position point, lastPoint? calls = some (position, point) →
    s.state.content = (s.content point).text ∧
      s.state.position = position.moved config.offset.dx config.offset.dy ∧
      s.surface.text = some s.state.content ∧ s.surface.html = some (s.content point).html ∧
      s.surface.position = some s.state.position ∧ s.surface.fadeIn = some config.fadeIn

variable {surface : Surface} {config : HoverConfig} {locales : LocaleTable} {calls : List Call}
  {s : Session}

/-- A session follows no calls when it starts. -/
lemma follows_start : Follows surface config locales [] (start surface config locales) where
  config_eq := rfl
  composer_eq := rfl
  mounted := rfl
  styled := rfl
  shows := (UInt64.add_zero _).symm
  hides := (UInt64.add_zero _).symm
  visible_iff := by simp [start]
  surface_visible_iff := by simp [start, Surface.mount]
  untouched _ := ⟨rfl, rfl, rfl, rfl, rfl, rfl⟩
  agree := by simp

/-- Showing a point follows one more hover over it. -/
lemma Follows.enter (h : Follows surface config locales calls s) {call : Call}
    {position : Position} {point : DataPoint} (hpoint : call.point? = some (position, point))
    (hleave : call.isLeave = false) (hhide : call.isHide = false) :
    Follows surface config locales (calls ++ [call]) (s.enter position point) where
  config_eq := h.config_eq
  composer_eq := h.composer_eq
  mounted := h.mounted
  styled := h.styled
  shows := by
    have hcount : (calls ++ [call]).countP Call.isPoint = calls.countP Call.isPoint + 1 := by
      simp [Call.isPoint, hpoint]
    rw [hcount, add_ofNat_succ, ← h.shows]
    rfl
  hides := by
    simpa [Session.enter, Surface.display, hhide, hleave] using h.hides
  visible_iff := by simp [Session.enter, Call.isPoint, hpoint]
  surface_visible_iff := by simp [Session.enter, Surface.display, Call.isPoint, hpoint]
  untouched := by simp [hpoint]
  agree := by
    intro position' point' hlast
    rw [lastPoint?_append_singleton, hpoint, Option.some_or, Option.some.injEq,
      Prod.mk.injEq] at hlast
    obtain ⟨rfl, rfl⟩ := hlast
    simp [Session.enter, Surface.display, Session.content, h.config_eq]

/-- A call over no point may change what is visible and how often the surface was hidden.  All else
stays, so only these are left to be followed. -/
lemma Follows.stay (h : Follows surface config locales calls s) {call : Call}
    (hpoint : call.point? = none) {visible surfaceVisible : Bool} {hideCount : UInt64}
    (hhides : hideCount = surface.hideCount + .ofNat ((calls ++ [call]).countP Call.isHide +
      shownLeaves (start surface config locales) (calls ++ [call])))
    (hvisible : visible = true ↔ Since Call.isPoint Call.isPointer (calls ++ [call]))
    (hsurface : surfaceVisible = true ↔
      Since Call.isPoint (fun call => call.isPointer || call.isHide) (calls ++ [call])) :
    Follows surface config locales (calls ++ [call]) { s with
      surface := { s.surface with visible := surfaceVisible, hideCount }
      state := { s.state with visible } } where
  config_eq := h.config_eq
  composer_eq := h.composer_eq
  mounted := h.mounted
  styled := h.styled
  shows := by
    have hnot : call.isPoint = false := by simp [Call.isPoint, hpoint]
    simpa [hnot] using h.shows
  hides := hhides
  visible_iff := hvisible
  surface_visible_iff := hsurface
  untouched := by
    rw [lastPoint?_append_of_none hpoint]
    exact h.untouched
  agree := by
    rw [lastPoint?_append_of_none hpoint]
    exact h.agree

/-- Leaving follows one more call by which the pointer leaves. -/
lemma Follows.leave (h : Follows surface config locales calls s)
    (hs : s = (start surface config locales).run calls) {call : Call}
    (hpoint : call.point? = none) (hleave : call.isLeave = true) (hhide : call.isHide = false) :
    Follows surface config locales (calls ++ [call]) s.leave := by
  have hnot : call.isPoint = false := by simp [Call.isPoint, hpoint]
  have hpointer : call.isPointer = true := by simp [Call.isPointer, hleave]
  have hcount : (calls ++ [call]).countP Call.isHide = calls.countP Call.isHide := by
    simp [hhide]
  by_cases hvisible : s.state.visible = true
  · have heq : s.leave = { s with
        surface := s.surface.hide
        state := { s.state with visible := false } } := if_pos hvisible
    have hleaves : shownLeaves (start surface config locales) (calls ++ [call]) =
        shownLeaves (start surface config locales) calls + 1 := by
      simp [hleave, ← hs, hvisible]
    rw [heq]
    refine h.stay hpoint ?_ ?_ ?_
    · rw [hcount, hleaves, ← Nat.add_assoc, add_ofNat_succ, ← h.hides]
    · simp [hnot, hpointer]
    · simp [hnot, hpointer]
  · have heq : s.leave = s := if_neg hvisible
    have hleaves : shownLeaves (start surface config locales) (calls ++ [call]) =
        shownLeaves (start surface config locales) calls := by
      simp [← hs, hvisible]
    have hhides := h.hides
    rw [← hcount, ← hleaves] at hhides
    -- a surface that is visible would be so since a point that the state shows as well
    have hsurface : ¬s.surface.visible = true := fun hv =>
      hvisible (h.visible_iff.2 ((h.surface_visible_iff.1 hv).mono (by simp +contextual)))
    rw [heq]
    refine h.stay hpoint hhides ?_ ?_
    · simp [hnot, hpointer, hvisible]
    · simp [hnot, hpointer, hsurface]

/-- Hiding the surface follows one more such call. -/
lemma Follows.hideSurface (h : Follows surface config locales calls s) {call : Call}
    (hpoint : call.point? = none) (hleave : call.isLeave = false) (hhide : call.isHide = true) :
    Follows surface config locales (calls ++ [call]) s.hideSurface := by
  have hcount : (calls ++ [call]).countP Call.isHide = calls.countP Call.isHide + 1 := by
    simp [hhide]
  have hleaves : shownLeaves (start surface config locales) (calls ++ [call]) =
      shownLeaves (start surface config locales) calls := by
    simp [hleave]
  refine h.stay hpoint ?_ ?_ ?_
  · rw [hcount, hleaves, Nat.add_right_comm, add_ofNat_succ, ← h.hides]
  · simp [Call.isPointer, Call.isPoint, hpoint, hleave, h.visible_iff]
  · simp [Call.isPoint, hpoint, hhide]

/-- Doing nothing follows one more call that is none of these. -/
lemma Follows.idle (h : Follows surface config locales calls s) {call : Call}
    (hpoint : call.point? = none) (hleave : call.isLeave = false) (hhide : call.isHide = false) :
    Follows surface config locales (calls ++ [call]) s := by
  refine h.stay hpoint ?_ ?_ ?_
  · simpa [hhide, hleave] using h.hides
  · simp [Call.isPointer, Call.isPoint, hpoint, hleave, h.visible_iff]
  · simp [Call.isPointer, Call.isPoint, hpoint, hleave, hhide, h.surface_visible_iff]

/-- Every call of a run is followed. -/
lemma Follows.apply
    (h : Follows surface config locales calls ((start surface config locales).run calls))
    (call : Call) : Follows surface config locales (calls ++ [call])
      (((start surface config locales).run calls).apply call) := by
  rcases apply_cases ((start surface config locales).run calls) call with
    ⟨position, point, hpoint, hleave, hhide, heq⟩ | ⟨hpoint, hleave, hhide, heq⟩ |
      ⟨hpoint, hleave, hhide, heq⟩ | ⟨hpoint, hleave, hhide, heq⟩
  · rw [heq]
    exact h.enter hpoint hleave hhide
  · rw [heq]
    exact h.leave rfl hpoint hleave hhide
  · rw [heq]
    exact h.hideSurface hpoint hleave hhide
  · rw [heq]
    exact h.idle hpoint hleave hhide

/-- After any calls a session is what they say. -/
lemma follows_run (surface : Surface) (config : HoverConfig) (locales : LocaleTable)
    (calls : List Call) :
    Follows surface config locales calls ((start surface config locales).run calls) := by
  induction calls using List.reverseRecOn with
  | nil => exact follows_start
  | append_singleton calls call ih =>
    rw [run_append_singleton]
    exact ih.apply call

end Session

end PlotAnnotation
