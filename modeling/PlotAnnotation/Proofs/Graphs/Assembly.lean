import PlotAnnotation.Proofs.Graphs.Shown
import PlotAnnotation.Proofs.Options.Finite
import PlotAnnotation.Proofs.Settings.Form

/-!
# The graphs that a form asks for

The graphs of a page are told here from the form that its settings were read from.  A switch that
reads true and the name of a field ask for a kind of graph (`Form.Asks`), and there are graphs of
that kind if there is a bucket for them.  `Graph.IsOfCounts` says what the graph of values is, place
by place, and `Graph.HasPoints` which points a graph over time has.  The graphs are then these and
no others, in this order (`all_of_form`).

Points and ticks of the graph of values are made by two walks over the same buckets, so they are
compared at each place.
-/

namespace PlotAnnotation

open Json

namespace Form

/-- A form asks for graphs by a switch that reads true and the name of a field. -/
def Asks (form : Object) (switch field : String) : Prop :=
  ReadsTrue (form.find? switch) ∧ ∃ name, form.find? field = some (.string name) ∧ name ≠ ""

/-- A form that was accepted asks for graphs exactly if its settings say so. -/
lemma asks_iff {form : Object} {known : List String} {switch field : String}
    {switchKey fieldKey : SettingKey} {shown : Bool} {name? : Option String}
    (hswitch : bool switchKey (form.find? switch) = .ok shown)
    (hfield : Form.field fieldKey known (form.find? field) = .ok name?) :
    Asks form switch field ↔ shown = true ∧ name?.isSome = true := by
  unfold Asks
  refine and_congr ?_ ?_
  · rw [← bool_eq_true_iff switchKey, hswitch, Except.ok.injEq]
  · cases name? with
    | none =>
      rw [field_eq_none_iff] at hfield
      refine iff_of_false ?_ (by simp)
      rintro ⟨name, hname⟩
      rw [← text?_eq_some_iff, hfield] at hname
      contradiction
    | some name =>
      rw [field_eq_some_iff] at hfield
      exact iff_of_true ⟨name, hfield.1⟩ rfl

end Form

namespace Graph

/-- The graph of the values of a field, told from the form and the buckets. -/
structure IsOfCounts (g : Graph) (form : Object) (known : List String)
    (counts : List CountBucket) : Prop where
  /-- The title is the label that the form gives, or else the name of the field, which is known. -/
  title_eq : ∃ name, form.find? "count_field" = some (.string name) ∧ name ≠ "" ∧ name ∈ known ∧
    (∀ label, form.find? "count_label" = some (.string label) → label ≠ "" → g.title = label) ∧
    ((∀ label, form.find? "count_label" = some (.string label) → label = "") → g.title = name)
  length_data : g.data.length = min 25 counts.length
  /-- The point at a place has the place as its instant and the count as its value. -/
  data_eq : ∀ i (h : i < min 25 counts.length), ∃ p, g.data[i]? = some p ∧
    p.timestamp.toInt = i ∧ p.value = Binary64.ofInt counts[i].count.toNat
  /-- The tick at a place has the place as its number and the key as its text. -/
  ticks_eq : ∃ ticks, g.options.toValue.at? ["xaxis", "ticks"] = some (.array ticks) ∧
    ticks.length = min 25 counts.length ∧
    ∀ i (h : i < min 25 counts.length), ∃ n : Number, n.toInt? = some (i : Int) ∧
      ticks[i]? = some (.array [.number n, .string (match counts[i].key with
        | some key => key
        | none => "Empty")])

/-- Neither a label nor a name is empty where it is the title. -/
lemma IsOfCounts.title_ne_empty {g : Graph} {form : Object} {known : List String}
    {counts : List CountBucket} (h : g.IsOfCounts form known counts) : g.title ≠ "" := by
  obtain ⟨name, -, hname, -, hlabel, hnone⟩ := h.title_eq
  by_cases hempty : ∀ label, form.find? "count_label" = some (.string label) → label = ""
  · rw [hnone hempty]
    exact hname
  · push Not at hempty
    obtain ⟨label, hgiven, hne⟩ := hempty
    rw [hlabel label hgiven hne]
    exact hne

/-- A graph has one point for each bucket, at its instant and with a number that has 64 bits. -/
def HasPoints (g : Graph) (dates : List DateBucket)
    (number : (i : Nat) → i < dates.length → Nat) : Prop :=
  g.data.length = dates.length ∧ ∀ i (h : i < dates.length), number i h < 2 ^ 64 ∧
    g.data[i]? = some ⟨dates[i].timestamp, Binary64.ofInt (number i h)⟩

end Graph

/-- Numbers that have 64 bits give points with finite values. -/
lemma Graph.HasPoints.isFinite {g : Graph} {dates : List DateBucket}
    {number : (i : Nat) → i < dates.length → Nat} (h : g.HasPoints dates number) :
    g.toOptions.IsFinite := by
  intro p hp
  change p ∈ g.data at hp
  obtain ⟨i, hi, rfl⟩ := List.mem_iff_getElem.1 hp
  have hlt : i < dates.length := h.1 ▸ hi
  obtain ⟨hbound, hpoint⟩ := h.2 i hlt
  rw [List.getElem?_eq_getElem hi, Option.some.injEq] at hpoint
  rw [hpoint]
  exact Binary64.isFinite_ofInt (by omega) (by omega)

namespace Graphs

variable {s : GraphSettings} {counts : List CountBucket} {dates : List DateBucket}

/-! ### Counts by value -/

/-- An integer that has 64 bits is written as itself. -/
lemma exists_number_integer {i : Nat} (h : i < 2 ^ 64) :
    ∃ n : Number, integer i = .number n ∧ n.toInt? = some (i : Int) := by
  refine ⟨_, rfl, ?_⟩
  change some ((UInt64.ofNat i).toNat : Int) = some (i : Int)
  rw [UInt64.toNat_ofNat_of_lt' h]

/-- A bucket within the limit is shown at its own place. -/
lemma getElem?_take_bucketLimit {i : Nat} (h : i < min 25 counts.length) :
    (counts.take bucketLimit)[i]? = some counts[i] := by
  rw [List.getElem?_take, if_pos (by unfold bucketLimit; omega), List.getElem?_eq_getElem]

/-- The graph of values with a title. -/
def countGraph (title : String) (counts : List CountBucket) : Graph where
  title := title
  data := (counts.take bucketLimit).mapIdx fun i b => countPoint b i
  options := countOptions (counts.take bucketLimit)

/-- A page that shows the graph of values has one if there is a bucket. -/
lemma exists_ofCounts (hwants : s.wantsCounts = true) (hcounts : counts ≠ []) :
    ∃ g, ofCounts s counts = some g := by
  obtain ⟨-, hfield⟩ := Bool.and_eq_true_iff.1 hwants
  obtain ⟨name, hname⟩ := Option.isSome_iff_exists.1 hfield
  rw [ofCounts, if_pos ⟨hwants, hcounts⟩, hname]
  exact ⟨_, rfl⟩

/-- The graph of values is titled by the label, or else by the name of its field. -/
lemma eq_of_ofCounts {g : Graph} (h : ofCounts s counts = some g) :
    ∃ name, s.countField = some name ∧ g = countGraph (s.countLabel.getD name) counts := by
  rw [ofCounts, Option.ite_none_right_eq_some] at h
  obtain ⟨name, hname, rfl⟩ := Option.map_eq_some_iff.1 h.2
  exact ⟨name, hname, rfl⟩

/-- The graph of values is made as it is told. -/
lemma isOfCounts {form : Object} {known : List String} (hs : Form.settings form known = .ok s)
    {name : String} (hname : s.countField = some name) :
    (countGraph (s.countLabel.getD name) counts).IsOfCounts form known counts where
  title_eq := by
    obtain ⟨-, -, -, -, hfield, hlabel⟩ := Form.settings_eq_ok_iff.1 hs
    rw [hname, Form.field_eq_some_iff] at hfield
    obtain ⟨⟨htext, hne⟩, hknown⟩ := hfield
    refine ⟨name, htext, hne, hknown, ?_, ?_⟩
    · intro label hgiven hne
      rw [Form.text?_eq_some_iff.2 ⟨hgiven, hne⟩] at hlabel
      rw [← hlabel]
      rfl
    · intro hnone
      cases hs : s.countLabel with
      | none => rfl
      | some label =>
        rw [hs, Form.text?_eq_some_iff] at hlabel
        exact absurd (hnone label hlabel.1) hlabel.2
  length_data := by
    rw [countGraph, List.length_mapIdx, List.length_take]
    rfl
  data_eq := by
    intro i hi
    refine ⟨countPoint counts[i] i, ?_, ?_, rfl⟩
    · rw [countGraph, List.getElem?_mapIdx, getElem?_take_bucketLimit hi]
      rfl
    · exact Int64.toInt_ofNat_of_lt (by omega)
  ticks_eq := by
    refine ⟨(counts.take bucketLimit).mapIdx fun i b => tick b i, rfl, ?_, ?_⟩
    · rw [List.length_mapIdx, List.length_take]
      rfl
    · intro i hi
      obtain ⟨n, hinteger, hn⟩ := exists_number_integer (i := i) (by omega)
      refine ⟨n, hn, ?_⟩
      rw [List.getElem?_mapIdx, getElem?_take_bucketLimit hi, Option.map_some, tick, hinteger,
        bucketName]
      cases counts[i].key <;> rfl

/-- Counts have finite values. -/
lemma isFinite_countGraph (title : String) (counts : List CountBucket) :
    (countGraph title counts).toOptions.IsFinite := by
  intro p hp
  obtain ⟨i, hi, rfl⟩ := List.mem_mapIdx.1 hp
  have hlt := ((counts.take bucketLimit)[i]).count.toNat_lt
  exact Binary64.isFinite_ofInt (by omega) (by omega)

/-! ### Counts over time -/

/-- There is a running total for each bucket. -/
lemma length_totals (start : UInt64) (dates : List DateBucket) :
    (totals start dates).length = dates.length := by
  induction dates generalizing start with
  | nil => rfl
  | cons b dates ih => rw [totals, List.length_cons, List.length_cons, ih]

/-- Words, one for each bucket, give as many points. -/
lemma hasPoints_of_data {g : Graph} {words : List UInt64} (hdata : g.data = datePoints dates words)
    (hlength : words.length = dates.length) {number : (i : Nat) → i < dates.length → Nat}
    (hwords : ∀ i hi, ∃ word, words[i]? = some word ∧ word.toNat = number i hi) :
    g.HasPoints dates number := by
  constructor
  · rw [hdata, datePoints, List.length_zipWith, hlength, Nat.min_self]
  · intro i hi
    refine ⟨?_, ?_⟩
    · obtain ⟨word, -, hword⟩ := hwords i hi
      exact hword ▸ word.toNat_lt
    · rw [hdata, getElem?_datePoints hi (hwords i hi)]

/-- The points of the running total are the sums of the counts so far. -/
lemma hasPoints_total (s : GraphSettings) (hsum : (dates.map (·.count.toNat)).sum < 2 ^ 64) :
    (total s dates).HasPoints dates
      fun i _ => ((dates.take (i + 1)).map (·.count.toNat)).sum :=
  hasPoints_of_data rfl (length_totals 0 dates) fun _ hi => exists_word_totals hsum hi

/-- The points of the records in each span are the counts. -/
lemma hasPoints_perSpan (s : GraphSettings) (dates : List DateBucket) :
    (perSpan s dates).HasPoints dates fun i _ => dates[i].count.toNat :=
  hasPoints_of_data rfl (List.length_map _) fun _ hi => exists_word_counts hi

/-- The graphs over time have titles. -/
lemma title_ne_empty_of_mem_ofDates {g : Graph} (h : g ∈ ofDates s dates) : g.title ≠ "" := by
  unfold ofDates at h
  split at h
  · rw [List.mem_cons, List.mem_singleton] at h
    rcases h with rfl | rfl
    · exact (by decide : "Total records" ≠ "")
    · simp [perSpan]
  · contradiction

/-! ### All graphs -/

/-- Every graph of a page has finite values, whatever the settings. -/
theorem isFinite_of_mem_all {g : Graph} (hg : g ∈ all s counts dates)
    (hsum : (dates.map (·.count.toNat)).sum < 2 ^ 64) : g.toOptions.IsFinite := by
  rcases List.mem_append.1 hg with hg | hg
  · obtain ⟨name, -, rfl⟩ := eq_of_ofCounts (Option.mem_toList.1 hg)
    exact isFinite_countGraph _ counts
  · unfold ofDates at hg
    split at hg
    · rw [List.mem_cons, List.mem_singleton] at hg
      rcases hg with rfl | rfl
      · exact (hasPoints_total s hsum).isFinite
      · exact (hasPoints_perSpan s dates).isFinite
    · contradiction

/-- A form that was accepted gives the graph of values if it asks for it and there is a bucket, then
the running total and the records in each span if it asks for these and there is a bucket, and
nothing else.  No title is empty. -/
theorem all_of_form {form : Object} {known : List String} (hs : Form.settings form known = .ok s)
    (counts : List CountBucket) (hsum : (dates.map (·.count.toNat)).sum < 2 ^ 64) :
    ∃ values times, all s counts dates = values ++ times ∧
      (Form.Asks form "show_count" "count_field" ∧ counts ≠ [] →
        ∃ g, values = [g] ∧ g.IsOfCounts form known counts) ∧
      (¬(Form.Asks form "show_count" "count_field" ∧ counts ≠ []) → values = []) ∧
      (Form.Asks form "show_date" "date_field" ∧ dates ≠ [] →
        ∃ running single, times = [running, single] ∧
          running.title = "Total records" ∧
          running.HasPoints dates (fun i _ => ((dates.take (i + 1)).map (·.count.toNat)).sum) ∧
          (∃ width, form.find? "date_interval" = some (.string width) ∧
            single.title = "Per " ++ width) ∧
          single.HasPoints dates (fun i _ => dates[i].count.toNat)) ∧
      (¬(Form.Asks form "show_date" "date_field" ∧ dates ≠ []) → times = []) ∧
      ∀ g ∈ values ++ times, g.title ≠ "" := by
  obtain ⟨hwidth, hshowDate, hdateField, hshowCount, hcountField, hlabel⟩ :=
    Form.settings_eq_ok_iff.1 hs
  have hasksCount : Form.Asks form "show_count" "count_field" ↔ s.wantsCounts = true := by
    rw [Form.asks_iff hshowCount hcountField, GraphSettings.wantsCounts, Bool.and_eq_true]
  have hasksDate : Form.Asks form "show_date" "date_field" ↔ s.wantsDates = true := by
    rw [Form.asks_iff hshowDate hdateField, GraphSettings.wantsDates, Bool.and_eq_true]
  have hcount : ∀ g, ofCounts s counts = some g → g.IsOfCounts form known counts := by
    intro g hg
    obtain ⟨name, hname, rfl⟩ := eq_of_ofCounts hg
    exact isOfCounts hs hname
  refine ⟨(ofCounts s counts).toList, ofDates s dates, rfl, ?_, ?_, ?_, ?_, ?_⟩
  · rintro ⟨hasks, hcounts⟩
    obtain ⟨g, hg⟩ := exists_ofCounts (hasksCount.1 hasks) hcounts
    rw [hg]
    exact ⟨g, rfl, hcount g hg⟩
  · intro hnot
    rw [hasksCount] at hnot
    rw [ofCounts, if_neg hnot]
    rfl
  · rintro ⟨hasks, hdates⟩
    refine ⟨total s dates, perSpan s dates, ?_, rfl, hasPoints_total s hsum, ?_,
      hasPoints_perSpan s dates⟩
    · rw [ofDates, if_pos ⟨hasksDate.1 hasks, hdates⟩]
    · exact ⟨_, Form.width_eq_ok_iff.1 hwidth, rfl⟩
  · intro hnot
    rw [hasksDate] at hnot
    rw [ofDates, if_neg hnot]
  · intro g hg
    rcases List.mem_append.1 hg with hg | hg
    · exact (hcount g (Option.mem_toList.1 hg)).title_ne_empty
    · exact title_ne_empty_of_mem_ofDates hg

/-- A form that asks for all graphs, and leaves the label of values empty. -/
def survey : Object where
  entries := [("show_count", .string "Yes"), ("count_field", .string "country"),
    ("count_label", .string ""), ("show_date", .bool true), ("date_field", .string "collected"),
    ("date_interval", .string "month")]
  distinct := by
    simp [Value.Distinct, Value.EntriesDistinct, Keyed.keys]

/-- Months of a field, and the values of another. -/
def surveySettings : GraphSettings :=
  { monthly with showCount := true, countField := some "country" }

/-- A missing value, and more values than are shown. -/
def countries : List CountBucket :=
  ⟨none, 3⟩ :: List.replicate 30 ⟨some "Empty", 1⟩

/-- All graphs are asked for, and the title falls back to the name of the field. -/
theorem all_of_form_survey :
    Form.settings survey ["collected", "country"] = .ok surveySettings ∧
    (leapSeconds.map (·.count.toNat)).sum < 2 ^ 64 ∧
    ∃ values running single, all surveySettings countries leapSeconds = [values, running, single] ∧
      values.IsOfCounts survey ["collected", "country"] countries ∧
      running.title = "Total records" ∧
      running.HasPoints leapSeconds
        (fun i _ => ((leapSeconds.take (i + 1)).map (·.count.toNat)).sum) ∧
      single.HasPoints leapSeconds (fun i _ => leapSeconds[i].count.toNat) ∧
      values.title ≠ "" ∧ single.title ≠ "" := by
  have hs : Form.settings survey ["collected", "country"] = .ok surveySettings := by
    rfl
  have hsum : (leapSeconds.map (·.count.toNat)).sum < 2 ^ 64 := by
    decide
  have hcount : Form.Asks survey "show_count" "count_field" :=
    ⟨.inr ⟨"Yes", rfl, by decide⟩, "country", rfl, by decide⟩
  have hdate : Form.Asks survey "show_date" "date_field" :=
    ⟨.inl rfl, "collected", rfl, by decide⟩
  obtain ⟨values, times, hall, hvalues, -, htimes, -, htitle⟩ := all_of_form hs countries hsum
  obtain ⟨g, rfl, hg⟩ := hvalues ⟨hcount, List.cons_ne_nil _ _⟩
  obtain ⟨running, single, rfl, hrunning, htotals, -, hsingle⟩ :=
    htimes ⟨hdate, List.cons_ne_nil _ _⟩
  refine ⟨hs, hsum, g, running, single, hall, hg, hrunning, htotals, hsingle, ?_, ?_⟩
  · exact htitle g List.mem_cons_self
  · exact htitle single (by simp)

end Graphs

end PlotAnnotation
