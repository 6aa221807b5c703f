import Mathlib.Data.List.Forall2
import PlotAnnotation.Options
import PlotAnnotation.Proofs.Decimal.Label
import PlotAnnotation.Proofs.Json.Record

/-!
# Options written and read

The text of a contract is read back in three steps: the text becomes a value, the value a contract,
and the contract, being of the current version, its options.  Two things can go wrong on the way.
The engine options may be nested too deeply for the text to be read, and a data point whose value is
not finite is written as `null`, which is no number; either gives a fault.

`ofText_contractText` says exactly what comes back.  Nothing is ever read as other options than
those that were written.
-/

namespace PlotAnnotation

open Json

open Float.Model in
/-- A finite double is equal to itself, being no NaN. -/
lemma Binary64.beq_self {x : Float} (h : x.isFinite = true) : (x == x) = true := by
  change x.toModel.unpack.isFinite = true at h
  change (x.toModel.unpack.compare x.toModel.unpack == some .eq) = true
  cases hx : x.toModel.unpack with
  | notANumber =>
    rw [hx] at h
    exact absurd h Bool.false_ne_true
  | infinity s =>
    rw [hx] at h
    exact absurd h Bool.false_ne_true
  | zero s => rfl
  | finite s m e hm =>
    have hmagnitude : (compare e e).then (compare m m) = .eq := by
      rw [compare_eq_iff_eq.2 (rfl : e = e), compare_eq_iff_eq.2 (rfl : m = m)]
      rfl
    cases s with
    | positive =>
      change (some ((compare e e).then (compare m m)) == some .eq) = true
      rw [hmagnitude]
      rfl
    | negative =>
      change (some ((compare e e).then (compare m m)).swap == some .eq) = true
      rw [hmagnitude]
      rfl

/-! ### Data points -/

namespace DataPoint

/-- A point comes back from its wire form exactly if its value is finite. -/
lemma ofTree?_ofValue (p : DataPoint) : Wire.ofTree? (Tree.ofValue (Wire.toValue p)) =
    if p.value.isFinite = true then some p else none := by
  have htimestamp : readTimestamp (.int p.timestamp.toInt (by have := p.timestamp.le_toInt; omega)
      (by have := p.timestamp.toInt_lt; omega)) = .ok p.timestamp := by
    rw [readTimestamp, if_pos p.timestamp.toInt_lt, Int64.ofInt_toInt]
  change ofTree? (.array [.number _, Tree.ofValue (.ofFloat p.value)]) = _
  unfold Value.ofFloat
  split
  · next hfinite =>
    rw [Tree.ofValue, ofTree?, htimestamp]
    rfl
  · rfl

/-- Data are read back exactly if all of their values are finite. -/
lemma mapM_ofTree? (data : List DataPoint) :
    (Tree.ofValues (data.map Wire.toValue)).mapM Wire.ofTree? =
      if ∀ p ∈ data, p.value.isFinite = true then some data else none := by
  induction data with
  | nil => simp [Tree.ofValues]
  | cons p data ih =>
    rw [List.map_cons, Tree.ofValues, List.mapM_cons, ofTree?_ofValue, ih]
    have hiff : (∀ q ∈ p :: data, q.value.isFinite = true) ↔
        p.value.isFinite = true ∧ ∀ q ∈ data, q.value.isFinite = true := List.forall_mem_cons
    by_cases hp : p.value.isFinite = true
    · by_cases hdata : ∀ q ∈ data, q.value.isFinite = true
      · rw [if_pos hp, if_pos hdata, if_pos (hiff.2 ⟨hp, hdata⟩)]
        rfl
      · rw [if_pos hp, if_neg hdata, if_neg fun h => hdata (hiff.1 h).2]
        rfl
    · rw [if_neg hp, if_neg fun h => hp (hiff.1 h).1]
      rfl

/-- The wire form of a point has no objects. -/
lemma distinct_toValue (p : DataPoint) : (Wire.toValue p).Distinct := by
  refine ⟨trivial, ?_, trivial⟩
  unfold Value.ofFloat
  split <;> trivial

/-- A data point is an array without values inside of its values. -/
lemma depth_toValue (p : DataPoint) : (Wire.toValue p).depth = 1 := by
  change (Value.array [.ofInt64 p.timestamp, .ofFloat p.value]).depth = 1
  unfold Value.ofFloat
  split <;> rfl

end DataPoint

/-! ### Options -/

namespace GraphOptions

variable (o : GraphOptions)

/-- The entries that options are written as. -/
def entries : List (String × Value) :=
  [("data", .array (o.data.map Wire.toValue)), ("config", o.config.toValue)] ++
    entry? granularityKey o.granularity ++ entry? "language" o.language

lemma toValue_eq_entries : Wire.toValue o = .object o.entries := rfl

lemma nodup_keys_entries : (Keyed.keys o.entries).Nodup := by
  unfold entries entry? granularityKey
  cases o.granularity <;> cases o.language <;> simp [Keyed.keys]

lemma find?_data : Keyed.find? "data" o.entries = some (.array (o.data.map Wire.toValue)) := rfl

lemma find?_config : Keyed.find? "config" o.entries = some o.config.toValue := rfl

/-- A granularity is written under its key, if there is one. -/
lemma find?_granularity :
    Keyed.find? granularityKey o.entries = o.granularity.map .string := by
  unfold entries entry? granularityKey
  cases o.granularity <;> cases o.language <;> rfl

/-- A language is written under its key, if there is one. -/
lemma find?_language : Keyed.find? "language" o.entries = o.language.map .string := by
  unfold entries entry? granularityKey
  cases o.granularity <;> cases o.language <;> rfl

/-- Options come back from their wire form exactly if all values are finite. -/
lemma ofTree?_ofValue : Wire.ofTree? (Tree.ofValue (Wire.toValue o)) =
    if ∀ p ∈ o.data, p.value.isFinite = true then some o else none := by
  have hdata : (Slot.ofMember (Keyed.find? "data" o.entries)).orDefault
      (Tree.toList? DataPoint.ofTree?) [] =
        if ∀ p ∈ o.data, p.value.isFinite = true then some o.data else none := by
    rw [find?_data]
    exact DataPoint.mapM_ofTree? o.data
  have hconfig : (Slot.ofMember (Keyed.find? "config" o.entries)).orDefault
      Object.ofTree? .empty = some o.config := by
    rw [find?_config]
    exact Object.ofTree?_ofValue o.config
  have hfields := fields?_ofValue ["data", "config", granularityKey, "language"]
    o.nodup_keys_entries
  rw [toValue_eq_entries]
  simp only [Wire.ofTree?]
  rw [hfields]
  simp only [Option.bind_eq_bind, Option.bind_some]
  rw [hdata, hconfig, find?_granularity, find?_language, Slot.orDefault_text,
    Slot.orDefault_text]
  split <;> rfl

/-- Keys are distinct in the wire form of options. -/
lemma distinct_toValue : (Wire.toValue o).Distinct := by
  have hdata : Value.AllDistinct (o.data.map Wire.toValue) := by
    rw [Value.allDistinct_iff, List.forall_mem_map]
    exact fun p _ => p.distinct_toValue
  have htext : ∀ key s, Value.EntriesDistinct <| entry? key s := by
    intro key s
    cases s with
    | none => trivial
    | some s => exact ⟨trivial, trivial⟩
  refine ⟨o.nodup_keys_entries, ?_⟩
  rw [Value.entriesDistinct_iff]
  intro e he
  rw [List.mem_append, List.mem_append, List.mem_cons, List.mem_singleton] at he
  rcases he with ((rfl | rfl) | he) | he
  · exact hdata
  · exact o.config.distinct
  · exact Value.entriesDistinct_iff.1 (htext _ _) e he
  · exact Value.entriesDistinct_iff.1 (htext _ _) e he

/-- Options are nested one deeper than the deeper of data and engine options. -/
lemma depth_toValue : (Wire.toValue o).depth =
    max (Value.array (o.data.map Wire.toValue)).depth o.config.toValue.depth + 1 := by
  rw [toValue_eq_entries, Value.depth]
  unfold entries entry?
  cases o.granularity <;> cases o.language <;> simp [Value.entriesDepth, Value.depth]

end GraphOptions

/-! ### Contracts -/

namespace Contract

variable (c : Contract)

/-- The entries that a contract is written as. -/
def entries : List (String × Value) :=
  [(versionKey, .ofUInt32 c.version), ("options", Wire.toValue c.options)]

lemma toValue_eq_entries : Wire.toValue c = .object c.entries := rfl

lemma nodup_keys_entries : (Keyed.keys c.entries).Nodup := by
  unfold entries versionKey
  simp [Keyed.keys]

lemma find?_version : Keyed.find? versionKey c.entries = some (.ofUInt32 c.version) := rfl

lemma find?_options : Keyed.find? "options" c.entries = some (Wire.toValue c.options) := rfl

/-- A contract comes back from its wire form exactly if all values of its options are finite. -/
lemma ofTree?_ofValue : Wire.ofTree? (Tree.ofValue (Wire.toValue c)) =
    if ∀ p ∈ c.options.data, p.value.isFinite = true then some c else none := by
  have hversion : (Slot.ofMember (Keyed.find? versionKey c.entries)).required Tree.toUInt32? =
      some c.version := by
    rw [find?_version, Slot.ofMember, Slot.required, Tree.toUInt32?_ofUInt32]
  have hoptions : (Slot.ofMember (Keyed.find? "options" c.entries)).required Wire.ofTree? =
      if ∀ p ∈ c.options.data, p.value.isFinite = true then some c.options else none := by
    rw [find?_options, Slot.ofMember, Slot.required, GraphOptions.ofTree?_ofValue]
  have hread : Wire.ofTree? (Tree.ofValue (Wire.toValue c)) =
      (fields? [versionKey, "options"] (Tree.ofValue (.object c.entries))).bind fun field =>
        ((field versionKey).required Tree.toUInt32?).bind fun version =>
          ((field "options").required Wire.ofTree?).bind fun options =>
            some (Contract.mk version options) := rfl
  rw [hread, fields?_ofValue _ c.nodup_keys_entries, Option.bind_some, hversion,
    Option.bind_some, hoptions]
  split <;> rfl

/-- Keys are distinct in the wire form of a contract. -/
lemma distinct_toValue : (Wire.toValue c).Distinct :=
  ⟨c.nodup_keys_entries, trivial, c.options.distinct_toValue, trivial⟩

end Contract

/-! ### The text of a contract -/

namespace GraphOptions

variable (o : GraphOptions)

/-- The wire form of options under the current version. -/
def contractValue : Value :=
  Wire.toValue (Contract.mk Contract.currentVersion o)

/-- Whether a contract is within the limit of nesting depends on the engine options alone, which
stand within two brackets. -/
theorem depth_contractValue_le_iff :
    o.contractValue.depth ≤ depthLimit ↔ o.config.toValue.depth ≤ depthLimit - 2 := by
  have hdata : Value.itemsDepth (o.data.map Wire.toValue) ≤ 1 := by
    refine Value.itemsDepth_le fun v hv => ?_
    obtain ⟨p, -, rfl⟩ := List.mem_map.1 hv
    exact p.depth_toValue.le
  have hcontract : o.contractValue.depth = (Wire.toValue o).depth + 1 := by
    change max 0 (max (Wire.toValue o).depth 0) + 1 = _
    omega
  rw [hcontract, depth_toValue, Value.depth, depthLimit]
  omega

/-- A contract value is a contract, and is accepted unless some value is not finite. -/
lemma ofValue_contractValue : ofValue o.contractValue =
    if ∀ p ∈ o.data, p.value.isFinite = true then .ok o else .error .contract := by
  have hmember : o.contractValue.member? Contract.versionKey =
      some (.ofUInt32 Contract.currentVersion) := rfl
  have hread : (Json.ofValue? o.contractValue : Option Contract) =
      if ∀ p ∈ o.data, p.value.isFinite = true then
        some (Contract.mk Contract.currentVersion o) else none :=
    Contract.ofTree?_ofValue (Contract.mk Contract.currentVersion o)
  rw [ofValue, hmember]
  by_cases hfinite : ∀ p ∈ o.data, p.value.isFinite = true
  · simp only [hread, if_pos hfinite]
    exact if_pos rfl
  · simp only [hread, if_neg hfinite]

/-- What is read from the text of a contract. -/
theorem ofText_contractText : ofText o.contractText =
    if o.contractValue.depth ≤ depthLimit then
      if ∀ p ∈ o.data, p.value.isFinite = true then .ok o else .error .contract
    else .error .optionsText := by
  have hvalue : Value.ofString? o.contractText =
      if o.contractValue.depth ≤ depthLimit then some o.contractValue else none :=
    Value.ofString?_indented (Contract.mk Contract.currentVersion o).distinct_toValue
  rw [ofText]
  by_cases hdepth : o.contractValue.depth ≤ depthLimit
  · simp only [hvalue, if_pos hdepth]
    exact o.ofValue_contractValue
  · simp only [hvalue, if_neg hdepth]

/-- Options are read from the text of a contract only if they are those that were written. -/
theorem ofText_contractText_eq_ok_iff (o' : GraphOptions) :
    ofText o.contractText = .ok o' ↔
      o' = o ∧ (∀ p ∈ o.data, p.value.isFinite = true) ∧ o.contractValue.depth ≤ depthLimit := by
  rw [ofText_contractText]
  by_cases hdepth : o.contractValue.depth ≤ depthLimit
  · rw [if_pos hdepth]
    by_cases hfinite : ∀ p ∈ o.data, p.value.isFinite = true
    · rw [if_pos hfinite, Except.ok.injEq, eq_comm]
      exact ⟨fun h => ⟨h, hfinite, hdepth⟩, fun h => h.1⟩
    · rw [if_neg hfinite]
      exact ⟨fun h => by contradiction, fun h => absurd h.2.1 hfinite⟩
  · rw [if_neg hdepth]
    exact ⟨fun h => by contradiction, fun h => absurd h.2.2 hdepth⟩

/-- Reading the text of a contract gives the options that were written or a fault, never other
options.  The options come back exactly if all values are finite and the text is within the limit of
nesting.  They are equal in every part, values also as doubles are compared, and are written as the
same text again. -/
theorem contractText_roundTrip (o : GraphOptions) :
    (∀ o', ofText o.contractText = .ok o' →
      o' = o ∧ o'.data.Forall₂ (fun p q => p.timestamp = q.timestamp ∧ (p.value == q.value) = true)
        o.data ∧ o'.contractText = o.contractText) ∧
    ((∃ p ∈ o.data, p.value.isNaN = true ∨ p.value.isInf = true) →
      ∃ f, ofText o.contractText = .error f) ∧
    (ofText o.contractText = .ok o ↔
      (∀ p ∈ o.data, p.value.isFinite = true) ∧ o.contractValue.depth ≤ depthLimit) := by
  refine ⟨fun o' hread => ?_, fun ⟨p, hp, hvalue⟩ => ?_, ?_⟩
  · obtain ⟨rfl, hfinite, -⟩ := (o.ofText_contractText_eq_ok_iff o').1 hread
    refine ⟨rfl, List.forall₂_same.2 fun p hp => ⟨rfl, ?_⟩, rfl⟩
    exact Binary64.beq_self (hfinite p hp)
  · cases hread : ofText o.contractText with
    | error f => exact ⟨f, rfl⟩
    | ok o' =>
      have hfinite := ((o.ofText_contractText_eq_ok_iff o').1 hread).2.1 p hp
      exact absurd hfinite (by simp [Binary64.isFinite_eq_false hvalue])
  · rw [ofText_contractText_eq_ok_iff]
    exact and_iff_right rfl

end GraphOptions

end PlotAnnotation
