import Mathlib.Tactic.Lemma
import PlotAnnotation.Options
import PlotAnnotation.Proofs.Decimal.Monotone

/-!
# Values that are read are finite

JSON has no numeral for a double that is not finite, and a numeral that rounds to infinity is not
read.  An integer is rounded to a double, but has only 64 bits.  So every number that is read stands
for a finite double (`Number.isFinite_toFloat`), and with it the value of every data point,
whichever way the options are read: bare or within a contract, from an object or from an array
(`isFinite_of_ofText`).
-/

namespace PlotAnnotation

open Json

/-- The double that a number stands for is finite. -/
lemma Json.Number.isFinite_toFloat (n : Number) : n.toFloat.isFinite = true := by
  cases n with
  | int n lower upper => exact Binary64.isFinite_ofInt (by omega) (by omega)
  | float x finite => exact finite

/-- What is in a list that was read was read from some item. -/
lemma Json.Tree.exists_of_mem_toList? {α : Type} {read : Tree → Option α} {t : Tree} {as : List α}
    (h : t.toList? read = some as) : ∀ a ∈ as, ∃ item, read item = some a := by
  unfold toList? at h
  split at h
  · next items =>
    induction items generalizing as with
    | nil =>
      obtain rfl : [] = as := Option.some.inj h
      intro a ha
      contradiction
    | cons item items ih =>
      simp only [List.mapM_cons, Option.bind_eq_bind, Option.bind_eq_some_iff] at h
      obtain ⟨first, hfirst, rest, hrest, h⟩ := h
      obtain rfl := Option.some.inj h
      intro a ha
      rcases List.mem_cons.1 ha with rfl | ha
      · exact ⟨item, hfirst⟩
      · exact ih hrest a ha
  · contradiction

/-- The value of a data point that was read is finite. -/
lemma DataPoint.isFinite_of_ofTree? {t : Tree} {p : DataPoint} (h : DataPoint.ofTree? t = some p) :
    p.value.isFinite = true := by
  unfold DataPoint.ofTree? at h
  split at h
  · next v =>
    obtain ⟨timestamp, -, rfl⟩ := Option.map_eq_some_iff.1 h
    exact v.isFinite_toFloat
  · contradiction

namespace GraphOptions

/-- All values of the data are finite. -/
def IsFinite (o : GraphOptions) : Prop :=
  ∀ p ∈ o.data, p.value.isFinite = true

/-- Options without data have no value that is not finite, and a list of data that was read has
none. -/
lemma isFinite_of_slot {slot : Slot} {data : List DataPoint}
    (h : slot.orDefault (Tree.toList? Wire.ofTree?) [] = some data) :
    ∀ p ∈ data, p.value.isFinite = true := by
  unfold Slot.orDefault at h
  split at h
  · intro p hp
    obtain ⟨item, hitem⟩ := Tree.exists_of_mem_toList? h p hp
    exact DataPoint.isFinite_of_ofTree? hitem
  · obtain rfl := Option.some.inj h
    intro p hp
    contradiction

/-- Options that are read from a tree have finite values. -/
lemma isFinite_of_ofTree? {t : Tree} {o : GraphOptions} (h : Wire.ofTree? t = some o) :
    o.IsFinite := by
  simp only [Wire.ofTree?, Option.bind_eq_bind, Option.bind_eq_some_iff] at h
  obtain ⟨field, -, data, hdata, config, -, granularity, -, language, -, h⟩ := h
  obtain rfl := Option.some.inj h
  exact isFinite_of_slot hdata

/-- A contract that is read has options with finite values. -/
lemma isFinite_of_contract {t : Tree} {c : Contract} (h : Wire.ofTree? t = some c) :
    c.options.IsFinite := by
  simp only [Wire.ofTree?, Option.bind_eq_bind, Option.bind_eq_some_iff] at h
  obtain ⟨field, -, version, -, options, hoptions, h⟩ := h
  obtain rfl := Option.some.inj h
  unfold Slot.required at hoptions
  split at hoptions
  · exact isFinite_of_ofTree? hoptions
  · contradiction

/-- Options of a value have finite values. -/
lemma isFinite_of_ofValue {v : Value} {o : GraphOptions} (h : ofValue v = .ok o) :
    o.IsFinite := by
  unfold ofValue at h
  split at h
  · split at h
    · next hread =>
      obtain rfl := Except.ok.inj h
      exact isFinite_of_ofTree? hread
    · contradiction
  · split at h
    · next contract hread =>
      unfold Contract.accept at h
      split at h
      · obtain rfl := Except.ok.inj h
        exact isFinite_of_contract hread
      · contradiction
    · contradiction

/-- Options of a text have finite values. -/
theorem isFinite_of_ofText {s : String} {o : GraphOptions} (h : ofText s = .ok o) :
    o.IsFinite := by
  unfold ofText at h
  split at h
  · exact isFinite_of_ofValue h
  · contradiction

end GraphOptions

end PlotAnnotation
