import PlotAnnotation.Graphs
import PlotAnnotation.Proofs.Calendar.Instants
import PlotAnnotation.Proofs.View.Simulation

/-!
# What the graphs over time show

A bucket becomes a point, the point is shown by a view of the graph, and what the view shows is the
label of the bucket's own time and a number: the running total in the first graph, the bucket's own
count in the second (`ofDates_shown`).  On the way the time goes through an instant in milliseconds,
and the granularity of the first graph through its engine options.

`Graph.ShowsBuckets` says this of one graph.  Both graphs are cases of `showsBuckets_of_data`.
-/

namespace PlotAnnotation

/-- Every table has the names that it looks up for the fallback language under that code. -/
lemma LocaleTable.find?_fallback (table : LocaleTable) :
    Keyed.find? fallbackLanguage table.entries = some (table.lookup (some fallbackLanguage)) := by
  obtain ⟨names, hnames⟩ := Keyed.exists_find?_of_mem table.hasFallback
  have hlookup : table.lookup (some fallbackLanguage) = names := by
    rw [lookup, if_neg (by decide), hnames]
  rw [hnames, hlookup]

/-! ### Hovering by index -/

namespace View

/-- Whatever a view was told before, a hover over the point at an index shows a text. -/
def ShowsAt (v : View) (index : Nat) (text : String) : Prop :=
  ∀ (events : List Event) (position : Position),
    ((v.run events).hoverIndex (some index) position).session.state.visible = true ∧
    ((v.run events).hoverIndex (some index) position).session.state.content = text ∧
    ((v.run events).hoverIndex (some index) position).session.surface.visible = true ∧
    ((v.run events).hoverIndex (some index) position).session.surface.text = some text

/-- A view shows of a point at an index what the tooltip of the point says at the start. -/
lemma showsAt_of_getElem? {options : GraphOptions} {i : Nat} {point : DataPoint}
    (h : options.data[i]? = some point) (s : Session) :
    ShowsAt ⟨options, s⟩ i (s.content point).text := by
  intro events position
  rw [run_eq]
  have henter :
      (hoverIndex ⟨options, s.run (events.map (Event.toCall options.data))⟩ (some i)
        position).session =
      (s.run (events.map (Event.toCall options.data))).enter position point := by
    change Session.hover _ ⟨position, options.data[i]?⟩ = _
    rw [h]
    rfl
  rw [henter, ← s.content_run (events.map (Event.toCall options.data)) point]
  exact ⟨rfl, rfl, rfl, rfl⟩

end View

/-- A view of the graph starts, and shows of each bucket the label of its time and a number. -/
def Graph.ShowsBuckets (g : Graph) (surface : Surface) (locales : LocaleTable)
    (granularity : Option Granularity) (names : MonthNames) (buckets : List DateBucket)
    (number : (i : Nat) → i < buckets.length → Nat) : Prop :=
  ∃ v, View.start g.toOptions surface locales = .ok v ∧
    ∀ i (hi : i < buckets.length), ∃ label, buckets[i].date.HasLabel granularity names label ∧
      v.ShowsAt i (label ++ ": " ++ numberLabel (Binary64.ofInt (number i hi)))

namespace Graphs

/-! ### The points of buckets -/

/-- The running total at a bucket is the sum of the counts up to it, as words add. -/
lemma getElem?_totals (start : UInt64) {buckets : List DateBucket} {i : Nat}
    (hi : i < buckets.length) : (totals start buckets)[i]? =
      some (start + .ofNat ((buckets.take (i + 1)).map (·.count.toNat)).sum) := by
  induction buckets generalizing start i with
  | nil => simp at hi
  | cons b buckets ih =>
    cases i with
    | zero => simp [totals]
    | succ i =>
      rw [List.length_cons] at hi
      rw [totals, List.getElem?_cons_succ, ih _ (by omega), List.take_succ_cons, List.map_cons,
        List.sum_cons, UInt64.ofNat_add, UInt64.ofNat_toNat, UInt64.add_assoc]

/-- A running total is no greater than the sum of all counts. -/
lemma sum_take_le (buckets : List DateBucket) (n : Nat) :
    ((buckets.take n).map (·.count.toNat)).sum ≤ (buckets.map (·.count.toNat)).sum := by
  have hsplit : ((buckets.take n).map (·.count.toNat)).sum +
      ((buckets.drop n).map (·.count.toNat)).sum = (buckets.map (·.count.toNat)).sum := by
    rw [← List.sum_append, ← List.map_append, List.take_append_drop]
  omega

/-- If the sum of all counts has 64 bits, no addition of the running total overflows. -/
lemma exists_word_totals {buckets : List DateBucket}
    (hsum : (buckets.map (·.count.toNat)).sum < 2 ^ 64) {i : Nat} (hi : i < buckets.length) :
    ∃ word, (totals 0 buckets)[i]? = some word ∧
      word.toNat = ((buckets.take (i + 1)).map (·.count.toNat)).sum := by
  refine ⟨_, getElem?_totals 0 hi, ?_⟩
  have hbound := (sum_take_le buckets (i + 1)).trans_lt hsum
  rw [toNat_add_ofNat (by rwa [UInt64.toNat_zero, Nat.zero_add]), UInt64.toNat_zero, Nat.zero_add]

/-- The records in a span are the count of its bucket. -/
lemma exists_word_counts {buckets : List DateBucket} {i : Nat} (hi : i < buckets.length) :
    ∃ word, (buckets.map (·.count))[i]? = some word ∧ word.toNat = buckets[i].count.toNat := by
  refine ⟨buckets[i].count, ?_, rfl⟩
  rw [List.getElem?_map, List.getElem?_eq_getElem hi, Option.map_some]

/-- The point at a place has the instant of the bucket and the number of the word there. -/
lemma getElem?_datePoints {buckets : List DateBucket} {words : List UInt64} {i n : Nat}
    (hi : i < buckets.length) (hword : ∃ word, words[i]? = some word ∧ word.toNat = n) :
    (datePoints buckets words)[i]? = some ⟨buckets[i].timestamp, Binary64.ofInt n⟩ := by
  obtain ⟨word, hword, rfl⟩ := hword
  rw [datePoints, List.getElem?_zipWith, List.getElem?_eq_getElem hi, hword]

/-- Numbers have points with values. -/
lemma isNaN_of_mem_datePoints {buckets : List DateBucket} {words : List UInt64} {point : DataPoint}
    (h : point ∈ datePoints buckets words) : point.value.isNaN = false := by
  obtain ⟨i, hi⟩ := List.mem_iff_getElem?.1 h
  rw [datePoints, List.getElem?_zipWith] at hi
  split at hi
  · obtain rfl := Option.some.inj hi
    exact Binary64.isNaN_ofInt _
  · contradiction

/-- A graph of numbers at the instants of buckets shows them. -/
lemma showsBuckets_of_data {g : Graph} {buckets : List DateBucket} {words : List UInt64}
    (hdata : g.data = datePoints buckets words) {number : (i : Nat) → i < buckets.length → Nat}
    (hwords : ∀ i hi, ∃ word, words[i]? = some word ∧ word.toNat = number i hi)
    (surface : Surface) (locales : LocaleTable) :
    g.ShowsBuckets surface locales g.toOptions.namedGranularity
      (locales.lookup (some fallbackLanguage)) buckets number := by
  have hnan : ∀ point ∈ g.toOptions.data, point.value.isNaN = false := by
    intro point hpoint
    change point ∈ g.data at hpoint
    rw [hdata] at hpoint
    exact isNaN_of_mem_datePoints hpoint
  refine ⟨_, View.start_eq_ok hnan surface locales, ?_⟩
  intro i hi
  have hpoint : g.toOptions.data[i]? =
      some ⟨buckets[i].timestamp, Binary64.ofInt (number i hi)⟩ := by
    change g.data[i]? = _
    rw [hdata, getElem?_datePoints hi (hwords i hi)]
  refine ⟨_, DateTime.hasLabel_label buckets[i].date locales _ _, ?_⟩
  have hshown := View.showsAt_of_getElem? hpoint
    (Session.start surface g.toOptions.hoverConfig locales)
  rw [View.content_start] at hshown
  exact hshown

/-! ### The granularities of the graphs -/

/-- The granularity that is written into the options of the running total is read from them. -/
lemma namedGranularity_total (s : GraphSettings) (buckets : List DateBucket) :
    (total s buckets).toOptions.namedGranularity = s.width.granularity := by
  rfl

/-- The options of the records in each span have no granularity. -/
lemma namedGranularity_perSpan (s : GraphSettings) (buckets : List DateBucket) :
    (perSpan s buckets).toOptions.namedGranularity = none := by
  rfl

/-- Over dates that have a field there are two graphs.  The first shows of each bucket the running
total up to it, under a label as fine as the buckets are wide; the second its own count, under a
label of the whole date.  The totals fit 64 bits if the sum of all counts does. -/
theorem ofDates_shown {s : GraphSettings} {buckets : List DateBucket} (hdate : s.showDate = true)
    (hfield : s.dateField.isSome = true) (hbuckets : buckets ≠ [])
    (hsum : (buckets.map (·.count.toNat)).sum < 2 ^ 64) (surface : Surface)
    (locales : LocaleTable) :
    ∃ running single names, ofDates s buckets = [running, single] ∧
      Keyed.find? "en" locales.entries = some names ∧
      running.ShowsBuckets surface locales s.width.granularity names buckets
        (fun i _ => ((buckets.take (i + 1)).map (·.count.toNat)).sum) ∧
      (∀ i, ((buckets.take (i + 1)).map (·.count.toNat)).sum < 2 ^ 64) ∧
      (s.width = .minute ∨ s.width = .hour → s.width.granularity = none) ∧
      single.ShowsBuckets surface locales none names buckets
        (fun i _ => buckets[i].count.toNat) := by
  refine ⟨total s buckets, perSpan s buckets, _, ?_, locales.find?_fallback, ?_, ?_, ?_, ?_⟩
  · have hwants : s.wantsDates = true := by
      rw [GraphSettings.wantsDates, hdate, hfield]
      rfl
    rw [ofDates, if_pos ⟨hwants, hbuckets⟩]
  · rw [← namedGranularity_total s buckets]
    exact showsBuckets_of_data rfl (fun _ hi => exists_word_totals hsum hi) surface locales
  · intro i
    exact (sum_take_le buckets (i + 1)).trans_lt hsum
  · rintro (h | h)
    · rw [h]
      rfl
    · rw [h]
      rfl
  · rw [← namedGranularity_perSpan s buckets]
    exact showsBuckets_of_data rfl (fun _ hi => exists_word_counts hi) surface locales

/-- Months of some field. -/
def monthly : GraphSettings where
  showDate := true
  dateField := some "collected"
  width := .month
  showCount := false
  countField := none
  countLabel := none

/-- The leap second at the end of 2016, the day before it, and a leap second at the end of the
calendar; the counts add up to the greatest number of 64 bits. -/
def leapSeconds : List DateBucket :=
  [⟨{ day := 17166, time := ⟨86399, 10 ^ 9, by decide, by decide⟩ }, 3⟩,
    ⟨{ day := 17165, time := .midnight }, 5⟩,
    ⟨{ day := lastDay, time := ⟨86399, 10 ^ 9 + 7, by decide, by decide⟩ },
      18446744073709551607⟩]

/-- Leap seconds are shown like any other buckets, up to the greatest total of 64 bits. -/
theorem ofDates_shown_leapSeconds :
    monthly.showDate = true ∧ monthly.dateField.isSome = true ∧ leapSeconds ≠ [] ∧
    (leapSeconds.map (·.count.toNat)).sum < 2 ^ 64 ∧
    ∃ running single names, ofDates monthly leapSeconds = [running, single] ∧
      Keyed.find? "en" LocaleTable.builtin.entries = some names ∧
      running.ShowsBuckets {} .builtin (some .month) names leapSeconds
        (fun i _ => ((leapSeconds.take (i + 1)).map (·.count.toNat)).sum) ∧
      single.ShowsBuckets {} .builtin none names leapSeconds
        (fun i _ => leapSeconds[i].count.toNat) := by
  have hdate : monthly.showDate = true := rfl
  have hfield : monthly.dateField.isSome = true := rfl
  have hbuckets : leapSeconds ≠ [] := List.cons_ne_nil _ _
  have hsum : (leapSeconds.map (·.count.toNat)).sum < 2 ^ 64 := by
    decide
  obtain ⟨running, single, names, hgraphs, hnames, hrunning, -, -, hsingle⟩ :=
    ofDates_shown hdate hfield hbuckets hsum {} .builtin
  exact ⟨hdate, hfield, hbuckets, hsum, running, single, names, hgraphs, hnames, hrunning, hsingle⟩

end Graphs

end PlotAnnotation
