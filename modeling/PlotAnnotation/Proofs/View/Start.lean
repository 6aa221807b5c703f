import PlotAnnotation.Proofs.Graphs.Assembly

/-!
# When a view starts

A view starts unless a data point has no value.  The data are looked through before the surface is
touched, so a view that does not start leaves the surface of its host as it was
(`startOn_cases`).

There is no such point among options that were read from a text, nor in a graph of a page: their
values are even finite (`GraphOptions.IsFinite`).  Such options start a view on any surface, and
while the view is only told of indices, a shown tooltip ends in the text of a finite number
(`GraphOptions.IsFinite.shows`).
-/

namespace PlotAnnotation

namespace View

/-! ### The host's surface -/

variable (options : GraphOptions) (surface : Surface) (locales : LocaleTable)

/-- A view starts as it does on a surface of its own, after the surface was mounted, or it does not
start and the surface is as it was. -/
lemma startOn_cases :
    (∃ index, options.data.findIdx? (·.value.isNaN) = some index ∧
      (startOn options locales).run surface = (.error (.valueNaN index), surface)) ∨
    (options.data.findIdx? (·.value.isNaN) = none ∧
      (startOn options locales).run surface =
        (.ok ⟨options, Session.start surface options.hoverConfig locales⟩,
          surface.mount options.hoverConfig.style)) := by
  unfold startOn
  cases options.data.findIdx? (·.value.isNaN) with
  | some index => exact .inl ⟨index, rfl, rfl⟩
  | none => exact .inr ⟨rfl, rfl⟩

/-- Whoever has the surface, the same views start. -/
lemma fst_startOn :
    ((startOn options locales).run surface).1 = start options surface locales := by
  unfold start
  rcases startOn_cases options surface locales with ⟨index, hfound, hrun⟩ | ⟨hnone, hrun⟩
  · rw [hrun, hfound]
  · rw [hrun, hnone]

end View

/-! ### The last point -/

namespace Session

/-- The last hover over a point is one of the calls. -/
lemma exists_of_lastPoint? {calls : List Call} {position : Position} {point : DataPoint}
    (h : lastPoint? calls = some (position, point)) :
    ∃ call ∈ calls, call.point? = some (position, point) :=
  List.mem_filterMap.1 (List.mem_of_getLast? h)

/-- Where there was a hover over a point, there was a last one. -/
lemma exists_lastPoint?_of_since {q : Call → Bool} {calls : List Call}
    (h : Since Call.isPoint q calls) :
    ∃ position point, lastPoint? calls = some (position, point) := by
  obtain ⟨before, call, after, rfl, hcall, -⟩ := h
  obtain ⟨hover, hhover⟩ := Option.isSome_iff_exists.1 hcall
  have hmem : hover ∈ (before ++ call :: after).filterMap Call.point? :=
    List.mem_filterMap.2 ⟨call, by simp, hhover⟩
  cases hlast : lastPoint? (before ++ call :: after) with
  | none =>
    rw [List.getLast?_eq_none_iff.1 hlast] at hmem
    contradiction
  | some last => exact ⟨last.1, last.2, rfl⟩

end Session

/-! ### Finite values -/

namespace GraphOptions

/-- A view of the options starts on any surface.  While it is only told of indices, a shown tooltip
says the label of a data point and its value, and the value is finite. -/
def ShowsFinite (options : GraphOptions) : Prop :=
  ∀ (surface : Surface) (locales : LocaleTable), ∃ v,
    View.start options surface locales = .ok v ∧
    ∀ events : List View.Event, (∀ event ∈ events, event.isIndex = true) →
      (v.run events).session.state.visible = true →
      ∃ point ∈ options.data, point.value.isFinite = true ∧
        (v.run events).session.state.content =
          ((v.run events).session.content point).label ++ ": " ++ numberLabel point.value ∧
        (v.run events).session.surface.text = some (v.run events).session.state.content

/-- Options with finite values show nothing else. -/
lemma IsFinite.shows {options : GraphOptions} (h : options.IsFinite) : options.ShowsFinite := by
  intro surface locales
  have hnan : ∀ point ∈ options.data, point.value.isNaN = false :=
    fun point hpoint => Binary64.isNaN_of_isFinite (h point hpoint)
  refine ⟨_, View.start_eq_ok hnan surface locales, ?_⟩
  intro events hindex hvisible
  rw [View.run_eq] at hvisible ⊢
  have hfollows := Session.follows_run surface options.hoverConfig locales
    (events.map (View.Event.toCall options.data))
  -- what is shown is the last point, and indices are about points of the data only
  obtain ⟨position, point, hlast⟩ :=
    Session.exists_lastPoint?_of_since (hfollows.visible_iff.1 hvisible)
  obtain ⟨call, hcall, hpoint⟩ := Session.exists_of_lastPoint? hlast
  obtain ⟨event, hevent, rfl⟩ := List.mem_map.1 hcall
  have hmem : point ∈ options.data := by
    simp only [View.Event.toCall, Session.Call.point?, Option.map_eq_some_iff,
      Prod.mk.injEq] at hpoint
    obtain ⟨_, hpoint, -, rfl⟩ := hpoint
    exact View.Event.mem_of_point? (hindex event hevent) hpoint
  obtain ⟨hcontent, -, htext, -⟩ := hfollows.agree position point hlast
  exact ⟨point, hmem, h point hmem, hcontent, htext⟩

end GraphOptions

namespace View

/-- A view does not start exactly if a data point has no value.  It is then refused for the first
such point, before any call on the surface; otherwise the surface is mounted once and not called
again.  Options that were read from a text always start a view, and so do the graphs of a page; told
of indices only, such a view shows finite numbers. -/
theorem startOn_outcome (options : GraphOptions) (surface : Surface) (locales : LocaleTable) :
    ((∃ fault, ((startOn options locales).run surface).1 = .error fault) ↔
      ∃ point ∈ options.data, point.value.isNaN = true) ∧
    (∀ fault after, (startOn options locales).run surface = (.error fault, after) →
      after = surface ∧ ∃ i, ∃ hi : i < options.data.length,
        options.data[i].value.isNaN = true ∧
        (∀ j (hj : j < i), options.data[j].value.isNaN = false) ∧
        fault.kind = .data ∧
        fault.message = "invalid data: data point " ++ naturalText i ++ " has a NaN value") ∧
    (∀ v after, (startOn options locales).run surface = (.ok v, after) →
      after = surface.mount options.hoverConfig.style ∧
      after.mountCount = surface.mountCount + 1 ∧ after.showCount = surface.showCount ∧
      after.hideCount = surface.hideCount) ∧
    ((startOn options locales).run surface).1 = start options surface locales ∧
    (∀ text o, GraphOptions.ofText text = .ok o → o.ShowsFinite) ∧
    (∀ s counts dates, (dates.map fun b : DateBucket => b.count.toNat).sum < 2 ^ 64 →
      ∀ g ∈ Graphs.all s counts dates, g.toOptions.ShowsFinite) := by
  refine ⟨?_, ?_, ?_, fst_startOn options surface locales, ?_, ?_⟩
  · rcases startOn_cases options surface locales with ⟨index, hfound, hrun⟩ | ⟨hnone, hrun⟩
    · rw [hrun]
      obtain ⟨hlt, hnan, -⟩ := List.findIdx?_eq_some_iff_getElem.1 hfound
      exact iff_of_true ⟨_, rfl⟩ ⟨_, List.getElem_mem hlt, hnan⟩
    · rw [hrun]
      refine iff_of_false (by simp) ?_
      rintro ⟨point, hpoint, hnan⟩
      rw [List.findIdx?_eq_none_iff.1 hnone point hpoint] at hnan
      contradiction
  · intro fault after heq
    rcases startOn_cases options surface locales with ⟨index, hfound, hrun⟩ | ⟨-, hrun⟩
    · rw [hrun, Prod.mk.injEq, Except.error.injEq] at heq
      obtain ⟨rfl, rfl⟩ := heq
      obtain ⟨hlt, hnan, hfirst⟩ := List.findIdx?_eq_some_iff_getElem.1 hfound
      refine ⟨rfl, index, hlt, hnan, ?_, rfl, rfl⟩
      intro j hj
      exact Bool.eq_false_iff.2 (hfirst j hj)
    · rw [hrun, Prod.mk.injEq] at heq
      exact absurd heq.1 (by simp)
  · intro v after heq
    rcases startOn_cases options surface locales with ⟨index, -, hrun⟩ | ⟨-, hrun⟩
    · rw [hrun, Prod.mk.injEq] at heq
      exact absurd heq.1 (by simp)
    · rw [hrun, Prod.mk.injEq] at heq
      obtain ⟨-, rfl⟩ := heq
      exact ⟨rfl, rfl, rfl, rfl⟩
  · intro text o hread
    exact (GraphOptions.isFinite_of_ofText hread).shows
  · intro s counts dates hsum g hg
    exact (Graphs.isFinite_of_mem_all hg hsum).shows

end View

end PlotAnnotation
