import Mathlib.Tactic.Lemma
import PlotAnnotation.Json.Value

/-!
# Paths through objects

A path of keys leads from an object to what stands under the first key, and on from there.  It ends
where there is no such key, and at everything that is no object: arrays, texts, numbers and `null`
have nothing under any key.  `StandsAt` says what a path leads to.  Where keys are distinct this is
one value at most, and the one that is found (`at?_eq_some_iff`).

A value can be stored at any path (`store`).  On the way objects keep all their other entries, and
what is no object becomes one.  What was stored is found (`at?_store`), and a path that starts with
another key leads where it did before (`at?_store_of_ne`).
-/

namespace PlotAnnotation

/-- Where keys are distinct, what is under a key is the value of its entry. -/
lemma Keyed.find?_eq_some_iff {α : Type} {key : String} {a : α} {es : List (String × α)}
    (h : (keys es).Nodup) : find? key es = some a ↔ (key, a) ∈ es := by
  induction es with
  | nil => simp [find?]
  | cons e es ih =>
    obtain ⟨k, b⟩ := e
    obtain ⟨hk, hes⟩ := List.nodup_cons.1 h
    rw [find?, List.mem_cons, Prod.mk.injEq]
    split
    · next heq =>
      subst heq
      have hnot : (k, a) ∉ es := fun hmem => hk (List.mem_map.2 ⟨_, hmem, rfl⟩)
      simp [hnot, eq_comm]
    · next hne =>
      rw [ih hes]
      exact (or_iff_right fun heq => hne heq.1.symm).symm

namespace Json.Value

/-! ### What stands at a path -/

/-- The value that a path leads to, entry by entry. -/
inductive StandsAt : List String → Value → Value → Prop
  | nil (v : Value) : StandsAt [] v v
  | cons {key : String} {path : List String} {entries : List (String × Value)} {v w : Value}
      (hentry : (key, v) ∈ entries) (rest : StandsAt path v w) :
      StandsAt (key :: path) (object entries) w

/-- What is found at a path is what stands there. -/
theorem at?_eq_some_iff {path : List String} {v w : Value} (h : v.Distinct) :
    v.at? path = some w ↔ StandsAt path v w := by
  induction path generalizing v with
  | nil =>
    rw [at?, Option.some_inj]
    constructor
    · rintro rfl
      exact .nil v
    · rintro ⟨⟩
      rfl
  | cons key path ih =>
    rw [at?, Option.bind_eq_some_iff]
    constructor
    · rintro ⟨u, hu, hrest⟩
      cases v with
      | object entries =>
        have hmem := (Keyed.find?_eq_some_iff h.1).1 hu
        exact .cons hmem ((ih (entriesDistinct_iff.1 h.2 _ hmem)).1 hrest)
      | _ => contradiction
    · rintro ⟨⟩
      next entries u hmem hrest =>
        exact ⟨u, (Keyed.find?_eq_some_iff h.1).2 hmem,
          (ih (entriesDistinct_iff.1 h.2 _ hmem)).2 hrest⟩

/-- Nothing is found at a path where nothing stands. -/
lemma at?_eq_none_iff {path : List String} {v : Value} (h : v.Distinct) :
    v.at? path = none ↔ ∀ w, ¬StandsAt path v w := by
  simp only [Option.eq_none_iff_forall_ne_some, ne_eq, at?_eq_some_iff h]

/-! ### Storing -/

/-- The entries of an object; everything else has none. -/
def entries : Value → List (String × Value)
  | object entries => entries
  | _ => []

/-- Stores a value at a path. -/
def store : List String → Value → Value → Value
  | [], v, _ => v
  | key :: path, v, w =>
    object (Keyed.put key (store path v ((w.member? key).getD null)) w.entries)

/-- A member is found among the entries. -/
lemma member?_eq_find? (key : String) (w : Value) : w.member? key = Keyed.find? key w.entries := by
  cases w <;> rfl

/-- What was stored is found. -/
lemma at?_store (path : List String) (v w : Value) : (store path v w).at? path = some v := by
  induction path generalizing w with
  | nil => rfl
  | cons key path ih =>
    rw [store, at?, member?, Keyed.find?_put, if_pos rfl, Option.bind_some, ih]

/-- What stands under another key stays. -/
lemma at?_store_of_ne {key key' : String} (h : key' ≠ key) (path path' : List String)
    (v w : Value) : (store (key :: path) v w).at? (key' :: path') = w.at? (key' :: path') := by
  rw [store, at?, at?, member?, Keyed.find?_put, if_neg h, member?_eq_find?]

/-- The entries of a value with distinct keys have distinct keys. -/
lemma distinct_entries {w : Value} (h : w.Distinct) :
    (Keyed.keys w.entries).Nodup ∧ EntriesDistinct w.entries := by
  cases w with
  | object entries => exact h
  | _ => exact ⟨List.nodup_nil, trivial⟩

/-- Storing keeps the keys distinct. -/
lemma distinct_store {v : Value} (hv : v.Distinct) (path : List String) {w : Value}
    (hw : w.Distinct) : (store path v w).Distinct := by
  induction path generalizing w with
  | nil => exact hv
  | cons key path ih =>
    obtain ⟨hkeys, hentries⟩ := distinct_entries hw
    refine ⟨Keyed.nodup_put hkeys, entriesDistinct_put (ih ?_) hentries⟩
    rw [member?_eq_find?]
    cases hfind : Keyed.find? key w.entries with
    | none => trivial
    | some u =>
      exact entriesDistinct_iff.1 hentries _ ((Keyed.find?_eq_some_iff hkeys).1 hfind)

end Json.Value

/-- Stores a value at a path in an object. -/
def Json.Object.store (o : Object) (key : String) (path : List String) (v : Value)
    (hv : v.Distinct) : Object where
  entries := Keyed.put key (Value.store path v ((o.find? key).getD .null)) o.entries
  distinct := Value.distinct_store hv (key :: path) o.distinct

end PlotAnnotation
