import PlotAnnotation.Proofs.Canvas.BarNumbers
import PlotAnnotation.Proofs.Json.Path
import PlotAnnotation.Proofs.Json.Record
import PlotAnnotation.View

/-!
# Numbers over bars among the engine options

A configuration of bar numbers stands at one of two paths in the engine options; where there is
something at the first, even `null`, the second is not looked at (`View.barNumbers?_of_series`).

The wire form of a configuration keeps neither the color nor a distance that is not finite.  Neither
is seen: the distance that is applied comes back (`BarNumbersConfig.distance_written`), and so the
same labels are placed, in black.
-/

namespace PlotAnnotation

open Json

namespace BarNumbersConfig

variable (c : BarNumbersConfig)

/-- What comes back of a configuration from its wire form. -/
def written (c : BarNumbersConfig) : BarNumbersConfig where
  shown := c.shown
  top := c.top.filter Float.isFinite
  size := c.size
  color := .black

/-- The entries that a configuration is written as. -/
def entries (c : BarNumbersConfig) : List (String × Value) :=
  [("show", .bool c.shown), ("top", (c.top.map Value.ofFloat).getD .null),
    ("font_size_px", .ofFloat c.size)]

lemma toValue_eq_entries : Wire.toValue c = .object c.entries := rfl

lemma nodup_keys_entries : (Keyed.keys c.entries).Nodup := by
  simp [entries, Keyed.keys]

lemma distinct_toValue : (Wire.toValue c).Distinct := by
  have hfloat : ∀ x, (Value.ofFloat x).Distinct := by
    intro x
    unfold Value.ofFloat
    split <;> trivial
  have htop : ((c.top.map Value.ofFloat).getD .null).Distinct := by
    cases c.top with
    | none => trivial
    | some top => exact hfloat top
  exact ⟨c.nodup_keys_entries, trivial, htop, hfloat c.size, trivial⟩

/-- A distance comes back if it is finite. -/
lemma nullable_top (top : Option Float) :
    Slot.nullable Tree.toFloat? (Tree.ofValue ((top.map Value.ofFloat).getD .null)) =
      some (top.filter Float.isFinite) := by
  cases top with
  | none => rfl
  | some top =>
    rw [Option.map_some, Option.getD_some, Value.ofFloat, Option.filter_some]
    split
    · rfl
    · rfl

/-- A configuration with a finite size comes back from its wire form, in black. -/
lemma ofValue?_toValue (hsize : c.size.isFinite = true) :
    ofValue? (Wire.toValue c) = some c.written := by
  have hfields := fields?_ofValue ["show", "top", "font_size_px"] c.nodup_keys_entries
  have hshown : (Slot.ofMember (Keyed.find? "show" c.entries)).orDefault Tree.toBool? true =
      some c.shown := rfl
  have htop : (Slot.ofMember (Keyed.find? "top" c.entries)).orDefault
      (Slot.nullable Tree.toFloat?) none = some (c.top.filter Float.isFinite) := nullable_top c.top
  have hsize : (Slot.ofMember (Keyed.find? "font_size_px" c.entries)).orDefault Tree.toFloat? 10 =
      some c.size := by
    have hvalue : Value.ofFloat c.size = .number (.float c.size hsize) := dif_pos hsize
    change Tree.toFloat? (Tree.ofValue (Value.ofFloat c.size)) = some c.size
    rw [hvalue]
    rfl
  rw [toValue_eq_entries, ofValue?]
  simp only [Wire.ofTree?]
  rw [hfields]
  simp only [Option.bind_eq_bind, Option.bind_some, hshown, htop, hsize]
  rfl

/-- The same distance is applied: for one that is not finite this was the default before. -/
lemma distance_written : c.written.distance = c.distance := by
  cases htop : c.top with
  | none => simp [distance, written, htop]
  | some top =>
    by_cases hfinite : top.isFinite = true <;>
      simp [distance, written, htop, Option.filter_some, hfinite]

/-- If the color of a configuration can be drawn, the check is the same in black. -/
lemma check_written (hcolor : c.color.IsDrawable) : c.written.check = c.check := by
  have hblack : Color.black.IsDrawable := by
    have hzero : Color.InRange 0 := ⟨by decide, by decide, by decide⟩
    exact ⟨hzero, hzero, hzero, by decide, by decide, by decide⟩
  rw [check, check, written, hcolor.check_eq_ok, hblack.check_eq_ok]

end BarNumbersConfig

/-! ### Labels -/

/-- A text in black. -/
def TextMark.inBlack (t : TextMark) : TextMark :=
  { t with color := .black }

/-- From the configuration that comes back the same labels are placed, in black. -/
lemma BarNumbers.place_written {c : BarNumbersConfig} (hcolor : c.color.IsDrawable)
    (bars : List Bar) (offset : PlotOffset) :
    place bars offset c.written = (place bars offset c).map (List.map TextMark.inBlack) := by
  have hmark : mark offset c.written = TextMark.inBlack ∘ mark offset c := by
    funext bar
    rw [mark, c.distance_written]
    rfl
  rw [place, place, c.check_written hcolor, hmark, ← List.map_map]
  have hshown : c.written.shown = c.shown := rfl
  rw [hshown]
  cases c.check with
  | error fault => rfl
  | ok u => cases c.shown <;> rfl

/-! ### Views -/

namespace View

open Value

/-- Where the numbers of a series are configured. -/
def seriesPath : List String :=
  ["series", "bars", "numbers"]

/-- Where the numbers of all bars are configured. -/
def barsPath : List String :=
  ["bars", "numbers"]

/-- What stands at a path of the engine options. -/
def Configures (v : View) (path : List String) (value : Value) : Prop :=
  StandsAt path v.options.config.toValue value

/-- The view with other engine options. -/
def withConfig (v : View) (config : Object) : View :=
  { v with options := { v.options with config } }

/-- A value as a configuration of numbers. -/
def readNumbers (value : Value) : Except Fault (Option BarNumbersConfig) :=
  match Json.ofValue? value with
  | some config => .ok (some config)
  | none => .error .barNumbers

variable {v v' : View} {value : Value}

/-- What stands at a path is found at it. -/
lemma configures_iff {path : List String} :
    v.Configures path value ↔ v.options.config.toValue.at? path = some value :=
  (at?_eq_some_iff v.options.config.distinct).symm

/-- Nothing stands at a path exactly if nothing is found at it. -/
lemma not_configures_iff {path : List String} :
    (∀ w, ¬v.Configures path w) ↔ v.options.config.toValue.at? path = none :=
  (at?_eq_none_iff v.options.config.distinct).symm

/-- What stands at the path of the series is read. -/
lemma barNumbers?_of_series (h : v.Configures seriesPath value) :
    v.barNumbers? = readNumbers value := by
  have hvalue : barNumbersValue? v.options.config = some value := by
    rw [barNumbersValue?, ← seriesPath, configures_iff.1 h, Option.some_or]
  rw [barNumbers?, hvalue]
  rfl

/-- If nothing stands there, what stands at the path of the bars is read. -/
lemma barNumbers?_of_bars (hnone : ∀ w, ¬v.Configures seriesPath w)
    (h : v.Configures barsPath value) : v.barNumbers? = readNumbers value := by
  have hvalue : barNumbersValue? v.options.config = some value := by
    rw [barNumbersValue?, ← seriesPath, not_configures_iff.1 hnone, Option.none_or, ← barsPath,
      configures_iff.1 h]
  rw [barNumbers?, hvalue]
  rfl

/-- There is no configuration exactly if nothing stands at either path. -/
lemma barNumbers?_eq_none_iff : v.barNumbers? = .ok none ↔
    (∀ w, ¬v.Configures seriesPath w) ∧ ∀ w, ¬v.Configures barsPath w := by
  have hread (value : Value) : readNumbers value ≠ .ok none := by
    unfold readNumbers
    split <;> simp
  constructor
  · intro h
    have hseries : ∀ w, ¬v.Configures seriesPath w := fun w hw =>
      hread w ((barNumbers?_of_series hw).symm.trans h)
    exact ⟨hseries, fun w hw => hread w ((barNumbers?_of_bars hseries hw).symm.trans h)⟩
  · rintro ⟨hseries, hbars⟩
    have hvalue : barNumbersValue? v.options.config = none := by
      rw [barNumbersValue?, ← seriesPath, not_configures_iff.1 hseries, Option.none_or, ← barsPath,
        not_configures_iff.1 hbars]
    rw [barNumbers?, hvalue]

/-- Views with the same at both paths have the same configuration. -/
lemma barNumbers?_congr (hseries : ∀ w, v.Configures seriesPath w ↔ v'.Configures seriesPath w)
    (hbars : ∀ w, v.Configures barsPath w ↔ v'.Configures barsPath w) :
    v.barNumbers? = v'.barNumbers? := by
  simp only [configures_iff] at hseries hbars
  have hvalue : barNumbersValue? v.options.config = barNumbersValue? v'.options.config := by
    rw [barNumbersValue?, barNumbersValue?, ← seriesPath, ← barsPath, Option.ext hseries,
      Option.ext hbars]
  rw [barNumbers?, barNumbers?, hvalue]

/-! ### Configurations stored -/

/-- The view with a configuration stored at the path of the series. -/
def storeAtSeries (v : View) (c : BarNumbersConfig) : View :=
  v.withConfig (v.options.config.store "series" ["bars", "numbers"] (Wire.toValue c)
    c.distinct_toValue)

/-- The view with a configuration stored at the path of the bars. -/
def storeAtBars (v : View) (c : BarNumbersConfig) : View :=
  v.withConfig (v.options.config.store "bars" ["numbers"] (Wire.toValue c) c.distinct_toValue)

variable (v) (c : BarNumbersConfig)

/-- What was stored for the series stands there. -/
lemma configures_storeAtSeries : (v.storeAtSeries c).Configures seriesPath (Wire.toValue c) :=
  configures_iff.2 (at?_store seriesPath _ v.options.config.toValue)

/-- What was stored for the bars stands there. -/
lemma configures_storeAtBars : (v.storeAtBars c).Configures barsPath (Wire.toValue c) :=
  configures_iff.2 (at?_store barsPath _ v.options.config.toValue)

/-- What is stored at the path of the bars does not change what stands at that of the series. -/
lemma configures_series_storeAtBars (w : Value) :
    (v.storeAtBars c).Configures seriesPath w ↔ v.Configures seriesPath w := by
  have hat : (v.storeAtBars c).options.config.toValue.at? seriesPath =
      v.options.config.toValue.at? seriesPath :=
    at?_store_of_ne (by decide) ["numbers"] ["bars", "numbers"] _ v.options.config.toValue
  rw [configures_iff, configures_iff, hat]

/-- **Numbers over bars in the engine options.**  What stands at the path of the series is read, be
it `null`, and otherwise what stands at the path of the bars; nothing else has a part in it.  A
configuration with a finite size that is stored at the first path, or at the second where the first
is free, is read as one that shows the same in black: whichever distance was set, the same one is
applied, and if the color could be drawn, the same labels are placed on any bars. -/
theorem barNumbers?_outcome :
    (∀ (v : View) value, v.Configures seriesPath value → v.barNumbers? = readNumbers value) ∧
    (∀ v : View, v.Configures seriesPath .null → v.barNumbers? = .error .barNumbers) ∧
    (∀ (v : View) value, (∀ w, ¬v.Configures seriesPath w) → v.Configures barsPath value →
      v.barNumbers? = readNumbers value) ∧
    (∀ v : View, v.barNumbers? = .ok none ↔
      (∀ w, ¬v.Configures seriesPath w) ∧ ∀ w, ¬v.Configures barsPath w) ∧
    (∀ v v' : View, (∀ w, v.Configures seriesPath w ↔ v'.Configures seriesPath w) →
      (∀ w, v.Configures barsPath w ↔ v'.Configures barsPath w) →
      v.barNumbers? = v'.barNumbers?) ∧
    ∀ c : BarNumbersConfig, c.size.isFinite = true → ∃ c' : BarNumbersConfig,
      readNumbers (Wire.toValue c) = .ok (some c') ∧
      (∀ v : View, (v.storeAtSeries c).barNumbers? = .ok (some c')) ∧
      (∀ v : View, (∀ w, ¬v.Configures seriesPath w) →
        (v.storeAtBars c).barNumbers? = .ok (some c')) ∧
      c'.shown = c.shown ∧ c'.size = c.size ∧ c'.distance = c.distance ∧ c'.color = .black ∧
      (c.color.IsDrawable → ∀ bars offset, BarNumbers.place bars offset c' =
        (BarNumbers.place bars offset c).map (List.map TextMark.inBlack)) := by
  refine ⟨fun _ _ => barNumbers?_of_series, fun _ => barNumbers?_of_series,
    fun _ _ => barNumbers?_of_bars, fun _ => barNumbers?_eq_none_iff,
    fun _ _ => barNumbers?_congr, fun c hsize => ?_⟩
  have hread : readNumbers (Wire.toValue c) = .ok (some c.written) := by
    rw [readNumbers, c.ofValue?_toValue hsize]
  refine ⟨c.written, hread, fun v => ?_, fun v hseries => ?_, rfl, rfl, c.distance_written, rfl,
    BarNumbers.place_written⟩
  · rw [barNumbers?_of_series (v.configures_storeAtSeries c), hread]
  · have hfree : ∀ w, ¬(v.storeAtBars c).Configures seriesPath w := fun w hw =>
      hseries w ((v.configures_series_storeAtBars c w).1 hw)
    rw [barNumbers?_of_bars hfree (v.configures_storeAtBars c), hread]

/-- Red numbers at a distance. -/
def redNumbers (top : Float) : BarNumbersConfig where
  top := some top
  color := { red := 1, green := 0, blue := 0 }

/-- Stored in a view without engine options, red numbers are read as black ones: at the distance
that was set, or at the default one if what was set is no number. -/
theorem barNumbers?_outcome_redNumbers :
    (redNumbers 7.5).size.isFinite = true ∧ (redNumbers (0 / 0)).size.isFinite = true ∧
    (∃ c', (storeAtSeries ⟨{}, Session.start {} {} .builtin⟩ (redNumbers 7.5)).barNumbers? =
        .ok (some c') ∧
      (storeAtBars ⟨{}, Session.start {} {} .builtin⟩ (redNumbers 7.5)).barNumbers? =
        .ok (some c') ∧
      c'.distance = 7.5 ∧ c'.color = .black ∧
      ∀ bars offset, BarNumbers.place bars offset c' =
        (BarNumbers.place bars offset (redNumbers 7.5)).map (List.map TextMark.inBlack)) ∧
    ∃ c', (storeAtSeries ⟨{}, Session.start {} {} .builtin⟩ (redNumbers (0 / 0))).barNumbers? =
        .ok (some c') ∧
      (storeAtBars ⟨{}, Session.start {} {} .builtin⟩ (redNumbers (0 / 0))).barNumbers? =
        .ok (some c') ∧
      c'.distance = 3 ∧ c'.color = .black ∧
      ∀ bars offset, BarNumbers.place bars offset c' =
        (BarNumbers.place bars offset (redNumbers (0 / 0))).map (List.map TextMark.inBlack) := by
  have hsize (top : Float) : (redNumbers top).size.isFinite = true := by
    change (10 : Float).isFinite = true
    decide
  have hdrawable (top : Float) : (redNumbers top).color.IsDrawable := by
    have hzero : Color.InRange 0 := ⟨by decide, by decide, by decide⟩
    have hone : Color.InRange 1 := ⟨by decide, by decide, by decide⟩
    exact ⟨hone, hzero, hzero, hone⟩
  have hfree : ∀ w, ¬Configures ⟨{}, Session.start {} {} .builtin⟩ seriesPath w :=
    not_configures_iff.2 rfl
  obtain ⟨-, -, -, -, -, hstored⟩ := barNumbers?_outcome
  refine ⟨hsize 7.5, hsize (0 / 0), ?_, ?_⟩
  · obtain ⟨c', -, hseries, hbars, -, -, hdistance, hcolor, hplace⟩ := hstored _ (hsize 7.5)
    refine ⟨c', hseries _, hbars _ hfree, ?_, hcolor, hplace (hdrawable 7.5)⟩
    rw [hdistance]
    decide
  · obtain ⟨c', -, hseries, hbars, -, -, hdistance, hcolor, hplace⟩ := hstored _ (hsize (0 / 0))
    refine ⟨c', hseries _, hbars _ hfree, ?_, hcolor, hplace (hdrawable (0 / 0))⟩
    rw [hdistance]
    decide

end View

end PlotAnnotation
