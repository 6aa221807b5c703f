import PlotAnnotation.Proofs.Decimal.Label
import PlotAnnotation.Proofs.Hover.History
import PlotAnnotation.View

/-!
# A view as a session

A view adds nothing to its session but the points: an event names a point, or an index of one, and
the session is called with the point that is meant.  `Event.toCall` is this translation.  It keeps
step (`apply_eq`), so after any events the view holds the session that has answered the translated
calls (`run_eq`).

What the tooltip of a point says is fixed when the session starts (`content_run`).  A view that is
only told of indices therefore shows nothing but what its own data says, and since none of it is
without a value, no shown text ends in `NaN`.
-/

namespace PlotAnnotation

/-! ### What no call changes -/

namespace Session

/-- No call changes what the tooltip of a point says. -/
lemma content_apply (s : Session) (call : Call) (point : DataPoint) :
    (s.apply call).content point = s.content point := by
  rcases apply_cases s call with ⟨position, point, -, -, -, heq⟩ | ⟨-, -, -, heq⟩ |
    ⟨-, -, -, heq⟩ | ⟨-, -, -, heq⟩
  · rw [heq]
    rfl
  · rw [heq, leave]
    split
    · rfl
    · rfl
  · rw [heq]
    rfl
  · rw [heq]

/-- No call changes what the tooltip of a point says. -/
lemma content_run (s : Session) (calls : List Call) (point : DataPoint) :
    (s.run calls).content point = s.content point := by
  induction calls using List.reverseRecOn with
  | nil => rfl
  | append_singleton calls call ih => rw [run_append_singleton, content_apply, ih]

/-- If the tooltip is shown, it says the content of one of the points. -/
def ShowsOneOf (points : List DataPoint) (s : Session) : Prop :=
  s.state.visible = true → ∃ point ∈ points, s.state.content = (s.content point).text

variable {points : List DataPoint} {s : Session}

/-- A call that is about none but these points keeps to them. -/
lemma ShowsOneOf.apply (h : ShowsOneOf points s) {call : Call}
    (hcall : ∀ position point, call.point? = some (position, point) → point ∈ points) :
    ShowsOneOf points (s.apply call) := by
  rcases apply_cases s call with ⟨position, point, hpoint, -, -, heq⟩ | ⟨-, -, -, heq⟩ |
    ⟨-, -, -, heq⟩ | ⟨-, -, -, heq⟩
  · rw [heq]
    intro _
    exact ⟨point, hcall position point hpoint, rfl⟩
  · rw [heq, leave]
    split
    · intro hvisible
      exact absurd hvisible Bool.false_ne_true
    · exact h
  · rw [heq]
    exact h
  · rw [heq]
    exact h

/-- Calls that are about none but these points keep to them. -/
lemma ShowsOneOf.run (h : ShowsOneOf points s) {calls : List Call}
    (hcalls : ∀ call ∈ calls, ∀ position point,
      call.point? = some (position, point) → point ∈ points) :
    ShowsOneOf points (s.run calls) := by
  induction calls using List.reverseRecOn with
  | nil => exact h
  | append_singleton calls call ih =>
    rw [run_append_singleton]
    refine (ih fun c hc => hcalls c (List.mem_append_left _ hc)).apply ?_
    exact hcalls call (List.mem_append_right _ List.mem_cons_self)

end Session

/-! ### The granularity of labels -/

/-- The granularity that options name: outside of the engine options, whatever the name, or else
among them, if a text stands there. -/
def GraphOptions.namedGranularity (o : GraphOptions) : Option Granularity :=
  match o.granularity, o.config.find? granularityKey with
  | some name, _ => Granularity.ofName? name
  | none, some (.string name) => Granularity.ofName? name
  | none, _ => none

/-- The granularity of labels is the one that is named. -/
lemma GraphOptions.labelGranularity_eq (o : GraphOptions) :
    o.labelGranularity = o.namedGranularity := by
  unfold labelGranularity granularityName namedGranularity
  cases o.granularity with
  | some name => rfl
  | none =>
    cases o.config.find? granularityKey with
    | none => rfl
    | some value => cases value <;> rfl

/-! ### Texts that do not end in NaN -/

/-- The text of a content ends in `NaN` only if its value is. -/
lemma TooltipContent.not_suffix_text {c : TooltipContent} (h : c.value.isNaN = false) :
    ¬"NaN".toList <:+ c.text.toList := by
  rintro ⟨front, hfront⟩
  have hne : (numberLabel c.value).toList ≠ [] :=
    fun hnil => numberLabel_ne_empty c.value (String.toList_eq_nil_iff.1 hnil)
  have hlast : (numberLabel c.value).toList.getLast? = some 'N' := by
    rw [text, String.toList_append] at hfront
    rw [← List.getLast?_append_of_ne_nil (c.label ++ ": ").toList hne, ← hfront,
      List.getLast?_append_of_ne_nil front (by decide)]
    rfl
  exact not_mem_numberLabel h (List.mem_of_getLast? hlast)

namespace View

/-! ### Step by step -/

/-- The data point that an event is about: the one hovered over, or that at an index of the data. -/
def Event.point? (data : List DataPoint) : Event → Option DataPoint
  | .hover event => event.point
  | .index none _ => none
  | .index (some i) _ => if h : i < data.length then some data[i] else none

/-- Where the pointer is at an event. -/
def Event.position : Event → Position
  | .hover event => event.position
  | .index _ position => position

/-- An event that gives an index. -/
def Event.isIndex : Event → Bool
  | .hover _ => false
  | .index _ _ => true

/-- The call on a session that an event amounts to. -/
def Event.toCall (data : List DataPoint) (event : Event) : Session.Call :=
  .hover ⟨event.position, event.point? data⟩

/-- An index is never about a point that is not in the data. -/
lemma Event.mem_of_point? {data : List DataPoint} {event : Event} (hindex : event.isIndex = true)
    {point : DataPoint} (h : event.point? data = some point) : point ∈ data := by
  cases event with
  | hover event => exact absurd hindex Bool.false_ne_true
  | index index position =>
    cases index with
    | none => contradiction
    | some i =>
      simp only [point?, Option.dite_none_right_eq_some, Option.some.injEq] at h
      obtain ⟨hi, rfl⟩ := h
      exact List.getElem_mem hi

/-- An event is answered by the session alone. -/
lemma apply_eq (v : View) (event : Event) :
    v.apply event = ⟨v.options, v.session.apply (event.toCall v.options.data)⟩ := by
  cases event with
  | hover event => rfl
  | index index position =>
    cases index with
    | none => rfl
    | some i =>
      have hpoint :
          v.options.data[i]? = Event.point? v.options.data (.index (some i) position) := by
        rw [Event.point?]
        split
        · next h => exact List.getElem?_eq_getElem h
        · next h => exact List.getElem?_eq_none (Nat.le_of_not_lt h)
      change View.mk _ (v.session.hover ⟨position, v.options.data[i]?⟩) = _
      rw [hpoint]
      rfl

/-- Events are answered by the session alone. -/
lemma run_eq (v : View) (events : List Event) :
    v.run events = ⟨v.options, v.session.run (events.map (Event.toCall v.options.data))⟩ := by
  induction events generalizing v with
  | nil => rfl
  | cons event events ih =>
    have hcons : v.run (event :: events) = (v.apply event).run events := rfl
    rw [hcons, apply_eq, ih]
    rfl

/-- Options whose data all have values start a view. -/
lemma start_eq_ok {options : GraphOptions} (h : ∀ point ∈ options.data, point.value.isNaN = false)
    (surface : Surface) (locales : LocaleTable) : View.start options surface locales =
      .ok ⟨options, Session.start surface options.hoverConfig locales⟩ := by
  have hnone : options.data.findIdx? (·.value.isNaN) = none := by
    rw [List.findIdx?_eq_none_iff]
    exact h
  rw [View.start, hnone]

/-- The tooltip of a point says the label of its instant in UTC and its value, with the granularity
and the language of the options. -/
lemma content_start (options : GraphOptions) (surface : Surface) (locales : LocaleTable)
    (point : DataPoint) : (Session.start surface options.hoverConfig locales).content point =
      { label := Composer.label { locales, offset := .utc } point.timestamp
          options.namedGranularity (some (options.language.getD fallbackLanguage))
        value := point.value } := by
  rw [← GraphOptions.labelGranularity_eq]
  rfl

/-- Options whose data all have values start a view that keeps them and that holds, after any
events, the session that has answered the calls the events amount to.  Labels have the granularity
named outside of the engine options, or else among them.  While the view is only told of indices, a
shown tooltip says a point of the data and does not end in `NaN`. -/
theorem start_run_eq {options : GraphOptions}
    (hdata : ∀ point ∈ options.data, point.value.isNaN = false) (surface : Surface)
    (locales : LocaleTable) :
    ∃ v, View.start options surface locales = .ok v ∧ ∀ events : List Event,
      (v.run events).options = options ∧
      (v.run events).session = (Session.start surface options.hoverConfig locales).run
        (events.map (Event.toCall options.data)) ∧
      (∀ point, (v.run events).session.content point =
        { label := Composer.label { locales, offset := .utc } point.timestamp
            options.namedGranularity (some (options.language.getD fallbackLanguage))
          value := point.value }) ∧
      ((∀ event ∈ events, event.isIndex = true) →
        (v.run events).session.state.visible = true →
        (∃ point ∈ options.data, (v.run events).session.state.content =
          ((v.run events).session.content point).text) ∧
        ¬"NaN".toList <:+ (v.run events).session.state.content.toList) := by
  refine ⟨_, start_eq_ok hdata surface locales, ?_⟩
  intro events
  rw [run_eq]
  refine ⟨rfl, rfl, ?_, ?_⟩
  · intro point
    rw [Session.content_run, content_start]
  · intro hindex hvisible
    have hstart : Session.ShowsOneOf options.data
        (Session.start surface options.hoverConfig locales) := by
      intro hvisible
      exact absurd hvisible Bool.false_ne_true
    have hcalls : ∀ call ∈ events.map (Event.toCall options.data), ∀ position point,
        call.point? = some (position, point) → point ∈ options.data := by
      intro call hcall position point hpoint
      obtain ⟨event, hevent, rfl⟩ := List.mem_map.1 hcall
      simp only [Event.toCall, Session.Call.point?, Option.map_eq_some_iff, Prod.mk.injEq] at hpoint
      obtain ⟨_, hpoint, -, rfl⟩ := hpoint
      exact Event.mem_of_point? (hindex event hevent) hpoint
    obtain ⟨point, hpoint, hcontent⟩ := hstart.run hcalls hvisible
    refine ⟨⟨point, hpoint, hcontent⟩, ?_⟩
    rw [hcontent]
    refine TooltipContent.not_suffix_text ?_
    exact hdata point hpoint

/-- Two points, and two names of granularities, of which the one that counts is unknown. -/
def twoPoints : GraphOptions where
  data := [⟨1700000000000, 42⟩, ⟨1701388800000, 7.5⟩]
  config :=
    { entries := [(granularityKey, .string "month")]
      distinct := by simp [Json.Value.Distinct, Json.Value.EntriesDistinct, Keyed.keys] }
  granularity := some "hour"

/-- The second point, an index past the end, and the first point. -/
def threeIndices : List Event :=
  [.index (some 1) {}, .index (some 9) {}, .index (some 0) {}]

/-- An index past the end hides what is shown, and the next one shows a point again. -/
theorem start_run_eq_twoPoints :
    (∀ point ∈ twoPoints.data, point.value.isNaN = false) ∧
    (∀ event ∈ threeIndices, event.isIndex = true) ∧
    ∃ v, View.start twoPoints {} .builtin = .ok v ∧
      (v.run threeIndices).options = twoPoints ∧
      (v.run threeIndices).session = (Session.start {} twoPoints.hoverConfig .builtin).run
        [.hover ⟨{}, some ⟨1701388800000, 7.5⟩⟩, .hover ⟨{}, none⟩,
          .hover ⟨{}, some ⟨1700000000000, 42⟩⟩] ∧
      (∀ point, (v.run threeIndices).session.content point =
        ⟨Composer.label {} point.timestamp none (some "en"), point.value⟩) ∧
      (v.run threeIndices).session.state.visible = true ∧
      ¬"NaN".toList <:+ (v.run threeIndices).session.state.content.toList := by
  have hdata : ∀ point ∈ twoPoints.data, point.value.isNaN = false := by
    decide
  have hindex : ∀ event ∈ threeIndices, event.isIndex = true := by
    decide
  obtain ⟨v, hv, hruns⟩ := start_run_eq hdata {} .builtin
  obtain ⟨hoptions, hsession, hcontent, hshown⟩ := hruns threeIndices
  have hvisible : (v.run threeIndices).session.state.visible = true := by
    rw [hsession]
    rfl
  exact ⟨hdata, hindex, v, hv, hoptions, hsession, hcontent, hvisible, (hshown hindex hvisible).2⟩

end View

end PlotAnnotation
