import Mathlib.Algebra.Ring.Nat
import Mathlib.Data.List.Induction
import Mathlib.Tactic.Lemma
import PlotAnnotation.Filters
import PlotAnnotation.Proofs.Keyed.Given

/-!
# Values gathered by field

Pairs of fields and values are gathered one after the other.  What comes out is said here without
following the pairs: `grouped` lists the fields in the order they first come, each with all of its
values (`gather_eq_grouped`), and `merge` puts two lists of filters together field by field
(`gather_append`).

Filters with distinct fields are known from the order of their fields and from the values of each
(`eq_of_values_eq`), so these two are what is followed through one more pair.
-/

namespace PlotAnnotation

namespace Keyed

variable {α : Type}

/-- Under a key that is none of the keys there is nothing. -/
lemma find?_eq_none {key : String} {es : List (String × α)} (h : key ∉ keys es) :
    find? key es = none := by
  rw [← isSome_find?, Bool.not_eq_true, Option.isSome_eq_false_iff, Option.isNone_iff_eq_none] at h
  exact h

/-- What is under a key in entries put together is in the first ones that have the key. -/
lemma find?_append (key : String) (es fs : List (String × α)) :
    find? key (es ++ fs) = (find? key es).or (find? key fs) := by
  induction es with
  | nil => rfl
  | cons e es ih =>
    by_cases h : e.1 = key
    · simp [find?, h]
    · simp [find?, h, ih]

/-- Under a key that is put there with its own value is that value. -/
lemma find?_map_key (f : String → α) (ks : List String) (key : String) :
    find? key (ks.map fun k => (k, f k)) = if key ∈ ks then some (f key) else none := by
  induction ks with
  | nil => rfl
  | cons k ks ih =>
    by_cases h : k = key
    · simp [find?, h]
    · simp [find?, h, Ne.symm h, ih]

/-- Changing what is under each key changes what is under one. -/
lemma find?_map_value (f : String × α → α) (es : List (String × α)) (key : String) :
    find? key (es.map fun e => (e.1, f e)) = (find? key es).map fun a => f (key, a) := by
  induction es with
  | nil => rfl
  | cons e es ih =>
    by_cases h : e.1 = key
    · simp [find?, ← h]
    · simp [find?, h, ih]

/-- Leaving out keys leaves what is under the others. -/
lemma find?_filter (p : String → Bool) (es : List (String × α)) (key : String) :
    find? key (es.filter fun e => p e.1) = if p key then find? key es else none := by
  induction es with
  | nil => simp [find?]
  | cons e es ih =>
    by_cases hp : p e.1
    · by_cases h : e.1 = key
      · subst h
        simp [find?, hp]
      · simp [find?, hp, h, ih]
    · by_cases h : e.1 = key
      · subst h
        simp [hp, ih]
      · simp [find?, hp, h, ih]

/-- Entries with distinct keys are known from what is under each key. -/
lemma eq_of_find?_eq {es fs : List (String × α)} (hkeys : keys es = keys fs)
    (hnodup : (keys es).Nodup) (h : ∀ key, find? key es = find? key fs) : es = fs := by
  induction es generalizing fs with
  | nil =>
    cases fs with
    | nil => rfl
    | cons f fs => simp at hkeys
  | cons e es ih =>
    cases fs with
    | nil => simp at hkeys
    | cons f fs =>
      obtain ⟨k, a⟩ := e
      obtain ⟨l, b⟩ := f
      simp only [keys_cons, List.cons.injEq] at hkeys
      obtain ⟨rfl, hkeys⟩ := hkeys
      rw [keys_cons, List.nodup_cons] at hnodup
      have hhead : a = b := by
        have := h k
        simpa [find?] using this
      have htail : ∀ key, find? key es = find? key fs := by
        intro key
        by_cases hkey : k = key
        · subst hkey
          rw [find?_eq_none hnodup.1, find?_eq_none (hkeys ▸ hnodup.1)]
        · have := h key
          simpa only [find?, if_neg hkey] using this
      rw [hhead, ih hkeys hnodup.2 htail]

end Keyed

namespace Filters

open Keyed

/-! ### One more pair -/

/-- The values of a field; none if the field does not come. -/
def values (field : String) (filters : Filters) : List String :=
  (find? field filters).getD []

/-- How many values there are, of all fields. -/
def total (filters : Filters) : Nat :=
  (filters.map (·.2.length)).sum

lemma values_of_find? {field : String} {filters : Filters} {vs : List String}
    (h : find? field filters = some vs) : values field filters = vs := by
  rw [values, h, Option.getD_some]

/-- A field that does not come has no values. -/
lemma values_of_notMem {field : String} {filters : Filters} (h : field ∉ keys filters) :
    values field filters = [] := by
  rw [values, find?_eq_none h, Option.getD_none]

/-- Filters with distinct fields are known from the fields and the values of each. -/
lemma eq_of_values_eq {f g : Filters} (hkeys : keys f = keys g) (hnodup : (keys f).Nodup)
    (h : ∀ field, values field f = values field g) : f = g := by
  apply eq_of_find?_eq hkeys hnodup
  intro field
  by_cases hfield : field ∈ keys f
  · obtain ⟨vs, hvs⟩ := exists_find?_of_mem hfield
    obtain ⟨ws, hws⟩ := exists_find?_of_mem (hkeys ▸ hfield)
    have hvalues := h field
    rw [values_of_find? hvs, values_of_find? hws] at hvalues
    rw [hvs, hws, hvalues]
  · rw [find?_eq_none hfield, find?_eq_none (hkeys ▸ hfield)]

/-- A pair brings its field, unless the field is there. -/
lemma keys_add (filters : Filters) (pair : String × String) : keys (add filters pair) =
    if pair.1 ∈ keys filters then keys filters else keys filters ++ [pair.1] :=
  keys_update _ _ _

/-- A value goes to the end of those of its field. -/
lemma values_add (field : String) (filters : Filters) (pair : String × String) :
    values field (add filters pair) =
      values field filters ++ if field = pair.1 then [pair.2] else [] := by
  unfold values add
  rw [find?_update]
  split
  · next h => rw [Option.getD_some, h]
  · rw [List.append_nil]

/-- A pair adds one value. -/
lemma total_add (filters : Filters) (pair : String × String) :
    (add filters pair).total = filters.total + 1 := by
  unfold total add
  induction filters with
  | nil => rfl
  | cons e filters ih =>
    obtain ⟨field, vs⟩ := e
    by_cases h : field = pair.1
    · simp only [update, if_pos h, List.map_cons, List.sum_cons, Option.getD_some,
        List.length_append, List.length_singleton]
      omega
    · simp only [update, if_neg h, List.map_cons, List.sum_cons, ih]
      omega

/-- A pair leaves no field without values. -/
lemma ne_nil_of_mem_add {filters : Filters} (h : ∀ e ∈ filters, e.2 ≠ [])
    (pair : String × String) : ∀ e ∈ add filters pair, e.2 ≠ [] := by
  unfold add
  induction filters with
  | nil => simp [update]
  | cons e filters ih =>
    obtain ⟨field, vs⟩ := e
    have htail : ∀ e ∈ filters, e.2 ≠ [] := fun e he => h e (List.mem_cons_of_mem _ he)
    by_cases hfield : field = pair.1
    · simp only [update, if_pos hfield, List.forall_mem_cons]
      exact ⟨by simp, htail⟩
    · simp only [update, if_neg hfield, List.forall_mem_cons]
      exact ⟨h _ List.mem_cons_self, ih htail⟩

/-! ### Any number of pairs -/

/-- The values that pairs have for a field, in order. -/
def valuesOf (field : String) (pairs : List (String × String)) : List String :=
  (pairs.filter fun pair => field = pair.1).map Prod.snd

/-- The fields of pairs in the order they first come, each with all its values in order. -/
def grouped (pairs : List (String × String)) : Filters :=
  (pairs.map Prod.fst).eraseDups.map fun field => (field, valuesOf field pairs)

/-- The values in more pairs come after those in the pairs before. -/
lemma valuesOf_append (field : String) (ps qs : List (String × String)) :
    valuesOf field (ps ++ qs) = valuesOf field ps ++ valuesOf field qs := by
  unfold valuesOf
  rw [List.filter_append, List.map_append]

/-- A field that does not come has no values. -/
lemma valuesOf_eq_nil {field : String} {pairs : List (String × String)}
    (h : field ∉ pairs.map Prod.fst) : valuesOf field pairs = [] := by
  have hfilter : pairs.filter (fun pair => field = pair.1) = [] := by
    rw [List.filter_eq_nil_iff]
    intro pair hpair hfield
    exact h (List.mem_map.2 ⟨pair, hpair, (of_decide_eq_true hfield).symm⟩)
  rw [valuesOf, hfilter, List.map_nil]

lemma keys_grouped (pairs : List (String × String)) :
    keys (grouped pairs) = (pairs.map Prod.fst).eraseDups := by
  rw [grouped, keys, List.map_map]
  exact List.map_id _

lemma values_grouped (field : String) (pairs : List (String × String)) :
    values field (grouped pairs) = valuesOf field pairs := by
  rw [values, grouped, find?_map_key]
  by_cases h : field ∈ (pairs.map Prod.fst).eraseDups
  · rw [if_pos h, Option.getD_some]
  · rw [List.mem_eraseDups] at h
    rw [if_neg (mt List.mem_eraseDups.1 h), Option.getD_none, valuesOf_eq_nil h]

lemma gather_append_singleton (pairs : List (String × String)) (pair : String × String) :
    gather (pairs ++ [pair]) = add (gather pairs) pair :=
  List.foldl_append

/-- No field is gathered twice. -/
lemma nodup_keys_gather (pairs : List (String × String)) : (keys (gather pairs)).Nodup := by
  induction pairs using List.reverseRecOn with
  | nil => exact List.nodup_nil
  | append_singleton pairs pair ih =>
    rw [gather_append_singleton]
    exact nodup_update ih

/-- No field is gathered without values. -/
lemma ne_nil_of_mem_gather (pairs : List (String × String)) : ∀ e ∈ gather pairs, e.2 ≠ [] := by
  induction pairs using List.reverseRecOn with
  | nil => simp [gather]
  | append_singleton pairs pair ih =>
    rw [gather_append_singleton]
    exact ne_nil_of_mem_add ih pair

/-- Every pair gives a value. -/
lemma total_gather (pairs : List (String × String)) : (gather pairs).total = pairs.length := by
  induction pairs using List.reverseRecOn with
  | nil => rfl
  | append_singleton pairs pair ih =>
    rw [gather_append_singleton, total_add, ih, List.length_append, List.length_singleton]

/-- The values of a field are gathered in order. -/
lemma values_gather (field : String) (pairs : List (String × String)) :
    values field (gather pairs) = valuesOf field pairs := by
  induction pairs using List.reverseRecOn with
  | nil => rfl
  | append_singleton pairs pair ih =>
    rw [gather_append_singleton, values_add, ih, valuesOf_append]
    unfold valuesOf
    by_cases h : field = pair.1
    · simp [h]
    · simp [h]

/-- The fields are gathered in the order they first come. -/
lemma keys_gather (pairs : List (String × String)) :
    keys (gather pairs) = (pairs.map Prod.fst).eraseDups :=
  keys_foldl_update Prod.fst (fun pair values => values.getD [] ++ [pair.2]) pairs

/-- Gathering groups the pairs by field. -/
theorem gather_eq_grouped (pairs : List (String × String)) : gather pairs = grouped pairs := by
  have hkeys : keys (gather pairs) = keys (grouped pairs) := by
    rw [keys_gather, keys_grouped]
  apply eq_of_values_eq hkeys (nodup_keys_gather pairs)
  intro field
  rw [values_gather, values_grouped]

/-! ### Filters put together -/

/-- The fields of one list and then those that only another has, each with its values in the one and
then in the other. -/
def merge (f g : Filters) : Filters :=
  f.map (fun e => (e.1, e.2 ++ values e.1 g)) ++ g.filter fun e => e.1 ∉ keys f

/-- The fields of the one come first, then the new ones of the other. -/
lemma keys_merge (f g : Filters) :
    keys (merge f g) = keys f ++ (keys g).filter fun field => field ∉ keys f := by
  unfold merge keys
  rw [List.map_append, List.map_map, List.filter_map]
  rfl

/-- The values of a field in the one come first, then those in the other. -/
lemma values_merge (field : String) (f g : Filters) :
    values field (merge f g) = values field f ++ values field g := by
  unfold merge
  rw [values, find?_append, find?_map_value, find?_filter (fun k => k ∉ keys f)]
  by_cases h : field ∈ keys f
  · obtain ⟨vs, hvs⟩ := exists_find?_of_mem h
    rw [hvs, values_of_find? hvs, Option.map_some, Option.some_or, Option.getD_some]
  · rw [find?_eq_none h, values_of_notMem h, Option.map_none, Option.none_or, List.nil_append,
      if_pos (decide_eq_true h)]
    rfl

/-- More pairs bring their new fields after those of the pairs before. -/
lemma keys_gather_append (ps qs : List (String × String)) : keys (gather (ps ++ qs)) =
    keys (gather ps) ++ (keys (gather qs)).filter fun field => field ∉ keys (gather ps) := by
  induction qs using List.reverseRecOn with
  | nil => simp [gather]
  | append_singleton qs q ih =>
    rw [← List.append_assoc, gather_append_singleton, gather_append_singleton, keys_add, keys_add,
      ih]
    by_cases hps : q.1 ∈ keys (gather ps)
    · rw [if_pos (List.mem_append_left _ hps)]
      by_cases hqs : q.1 ∈ keys (gather qs)
      · rw [if_pos hqs]
      · rw [if_neg hqs, List.filter_append]
        simp [hps]
    · by_cases hqs : q.1 ∈ keys (gather qs)
      · rw [if_pos hqs, if_pos]
        simp [hqs, hps]
      · rw [if_neg hqs, if_neg, List.filter_append, List.append_assoc]
        · simp [hps]
        · simp [hqs, hps]

/-- One list of pairs after another gives the filters of both put together. -/
theorem gather_append (ps qs : List (String × String)) :
    gather (ps ++ qs) = merge (gather ps) (gather qs) := by
  have hkeys : keys (gather (ps ++ qs)) = keys (merge (gather ps) (gather qs)) := by
    rw [keys_gather_append, keys_merge]
  apply eq_of_values_eq hkeys (nodup_keys_gather _)
  intro field
  rw [values_merge, values_gather, values_gather, values_gather, valuesOf_append]

end Filters

end PlotAnnotation
