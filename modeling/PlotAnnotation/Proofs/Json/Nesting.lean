import PlotAnnotation.Json.Tree
import PlotAnnotation.Proofs.Json.Token

/-!
# Values written and read

What the machine of trees makes of the tokens of a value depends on how many brackets are open
around it: brackets past `depthLimit` become unreadable.  `nested` is the tree that a value becomes
at a given depth, `foldlM_tokens` says that the machine builds it, and `toValue?_nested` says that
its value is the one written, unless the brackets of the value reach past the limit.

Together with the cutting of the text this gives `ofString?_write`: in every layout that adds only
blanks, a value with distinct keys is read back exactly if its depth is within the limit, and is
refused otherwise.
-/

namespace PlotAnnotation

/-! ### Writing under new keys -/

namespace Keyed

variable {α : Type}

/-- A key that is not there goes to the end. -/
lemma put_of_notMem {key : String} {a : α} {es : List (String × α)} (h : key ∉ keys es) :
    put key a es = es ++ [(key, a)] := by
  induction es with
  | nil => rfl
  | cons e es ih =>
    obtain ⟨k, b⟩ := e
    rw [keys_cons, List.mem_cons, not_or] at h
    have hput : put key a ((k, b) :: es) = (k, b) :: put key a es := if_neg (Ne.symm h.1)
    rw [hput, ih h.2, List.cons_append]

/-- Distinct entries are written one after the other. -/
lemma putAll_of_nodup {es new : List (String × α)} (h : (keys (es ++ new)).Nodup) :
    putAll es new = es ++ new := by
  induction new generalizing es with
  | nil => simp [putAll]
  | cons e new ih =>
    have hsplit : es ++ e :: new = es ++ [e] ++ new := by simp
    have hkey : e.1 ∉ keys es := by
      intro hmem
      rw [keys, List.map_append, List.nodup_append] at h
      exact h.2.2 e.1 hmem e.1 (by simp) rfl
    have hput : putAll es (e :: new) = putAll (put e.1 e.2 es) new := rfl
    rw [hsplit] at h ⊢
    rw [hput, put_of_notMem hkey, ih h]

/-- Entries with distinct keys are written as they are. -/
lemma putAll_nil {es : List (String × α)} (h : (keys es).Nodup) : putAll [] es = es :=
  putAll_of_nodup h

end Keyed

namespace Json

/-! ### How deep a value is -/

namespace Value

mutual

/-- How many brackets are open at most within a value. -/
def depth : Value → Nat
  | array items => itemsDepth items + 1
  | object entries => entriesDepth entries + 1
  | _ => 0

/-- The depth of the deepest item. -/
def itemsDepth : List Value → Nat
  | [] => 0
  | v :: vs => max (depth v) (itemsDepth vs)

/-- The depth of the deepest entry. -/
def entriesDepth : List (String × Value) → Nat
  | [] => 0
  | (_, v) :: es => max (depth v) (entriesDepth es)

end

/-- Items are no deeper than the deepest of them. -/
lemma itemsDepth_le {vs : List Value} {k : Nat} (h : ∀ v ∈ vs, v.depth ≤ k) :
    itemsDepth vs ≤ k := by
  induction vs with
  | nil => exact Nat.zero_le _
  | cons v vs ih =>
    rw [List.forall_mem_cons] at h
    exact Nat.max_le.2 ⟨h.1, ih h.2⟩

end Value

namespace Tree

mutual

/-- The tree that a value becomes where so many brackets are open around it. -/
def nested (k : Nat) : Value → Tree
  | .null => null
  | .bool b => bool b
  | .number n => number n
  | .string s => string s
  | .array items => if k < depthLimit then array (nestedItems (k + 1) items) else unreadable
  | .object entries =>
    if k < depthLimit then object (nestedEntries (k + 1) entries) else unreadable

/-- The trees of items. -/
def nestedItems (k : Nat) : List Value → List Tree
  | [] => []
  | v :: vs => nested k v :: nestedItems k vs

/-- The trees of entries. -/
def nestedEntries (k : Nat) : List (String × Value) → List (String × Tree)
  | [] => []
  | (key, v) :: es => (key, nested k v) :: nestedEntries k es

end

/-! ### The machine on the tokens of a value -/

/-- An entry whose key can be read. -/
def keyed (e : String × Tree) : Option String × Tree :=
  (some e.1, e.2)

/-- Entries that all have a key are the members of an object. -/
lemma ofEntries_map_keyed (entries : List (String × Tree)) :
    ofEntries (entries.map keyed) = object entries := by
  have hkeys : entries.mapM (fun e => some e) = some entries := by
    induction entries with
    | nil => rfl
    | cons e es ih =>
      rw [List.mapM_cons, ih]
      rfl
  simp only [ofEntries, List.mapM_map, Function.comp_def, keyed, Option.map_some, hkeys]

/-- A value may come first in an array. -/
lemma foldlM_item (v : Value) (stack : List Frame) (ts : List Token) :
    (v.tokens ++ ts).foldlM step (.item stack) =
      (v.tokens ++ ts).foldlM step (.value (.array [] :: stack)) := by
  match v with
  | .null | .bool _ | .number _ | .string _ | .array [] | .array (_ :: _) | .object []
  | .object (_ :: _) => rfl

mutual

/-- The tokens of a value build the tree that it becomes within the brackets that are open. -/
theorem foldlM_tokens (v : Value) (stack : List Frame) (ts : List Token) :
    (v.tokens ++ ts).foldlM step (.value stack) =
      ts.foldlM step (.after (nested stack.length v) stack) :=
  match v with
  | .null | .bool _ | .number _ | .string _ | .array [] | .object [] => rfl
  | .array (v :: vs) => by
    have hopen : step (.value stack) .openArray = some (.item stack) := rfl
    simp only [Value.tokens, List.cons_append, List.append_assoc, List.nil_append,
      List.foldlM_cons]
    rw [hopen, Option.bind_eq_bind, Option.bind_some, foldlM_item, foldlM_tokens v,
      foldlM_itemTokens vs]
    rfl
  | .object ((key, v) :: es) => by
    have hopen : step (.value stack) .openObject = some (.entry stack) := rfl
    have hkey : step (.entry stack) (.text (some key)) = some (.colon [] (some key) stack) := rfl
    have hcolon : step (.colon [] (some key) stack) .colon =
        some (.value (.object [] (some key) :: stack)) := rfl
    have hentries : ofEntries ([(some key, nested (stack.length + 1) v)].reverse ++
        (nestedEntries (stack.length + 1) es).map keyed) =
        object (nestedEntries (stack.length + 1) ((key, v) :: es)) :=
      ofEntries_map_keyed (nestedEntries (stack.length + 1) ((key, v) :: es))
    simp only [Value.tokens, List.cons_append, List.append_assoc, List.nil_append,
      List.foldlM_cons, Option.bind_eq_bind]
    rw [hopen, Option.bind_some, hkey, Option.bind_some, hcolon, Option.bind_some,
      foldlM_tokens v, List.length_cons, foldlM_entryTokens es, hentries]
    rfl

/-- The tokens of further items complete the array that is being read. -/
theorem foldlM_itemTokens (vs : List Value) (t : Tree) (before : List Tree)
    (stack : List Frame) (ts : List Token) :
    (Value.itemTokens vs ++ .closeArray :: ts).foldlM step (.after t (.array before :: stack)) =
      ts.foldlM step (.after (sealed stack (array
        ((t :: before).reverse ++ nestedItems (stack.length + 1) vs))) stack) :=
  match vs with
  | [] => by
    simp only [nestedItems, List.append_nil]
    rfl
  | v :: vs => by
    have hcomma : step (.after t (.array before :: stack)) .comma =
        some (.value (.array (t :: before) :: stack)) := rfl
    simp only [Value.itemTokens, List.cons_append, List.append_assoc, List.foldlM_cons]
    rw [hcomma, Option.bind_eq_bind, Option.bind_some, foldlM_tokens v, foldlM_itemTokens vs]
    simp [nestedItems]

/-- The tokens of further entries complete the object that is being read. -/
theorem foldlM_entryTokens (es : List (String × Value)) (t : Tree) (key : Option String)
    (before : List (Option String × Tree)) (stack : List Frame) (ts : List Token) :
    (Value.entryTokens es ++ .closeObject :: ts).foldlM step
        (.after t (.object before key :: stack)) =
      ts.foldlM step (.after (sealed stack (ofEntries
        (((key, t) :: before).reverse ++ (nestedEntries (stack.length + 1) es).map keyed)))
          stack) :=
  match es with
  | [] => by
    simp only [nestedEntries, List.map_nil, List.append_nil]
    rfl
  | (key', v) :: es => by
    have hcomma : step (.after t (.object before key :: stack)) .comma =
        some (.key ((key, t) :: before) stack) := rfl
    have hkey : step (.key ((key, t) :: before) stack) (.text (some key')) =
        some (.colon ((key, t) :: before) (some key') stack) := rfl
    have hcolon : step (.colon ((key, t) :: before) (some key') stack) .colon =
        some (.value (.object ((key, t) :: before) (some key') :: stack)) := rfl
    simp only [Value.entryTokens, List.cons_append, List.append_assoc, List.foldlM_cons,
      Option.bind_eq_bind]
    rw [hcomma, Option.bind_some, hkey, Option.bind_some, hcolon, Option.bind_some,
      foldlM_tokens v, foldlM_entryTokens es]
    simp [nestedEntries, keyed]

end

/-- The tree of the text of a value. -/
theorem ofString?_write {l : Layout} (hl : l.Blank) (v : Value) :
    ofString? (String.ofList (v.write l 0)) = some (nested 0 v) := by
  have hrun := foldlM_tokens v [] []
  rw [List.append_nil] at hrun
  rw [ofString?, String.toList_ofList, Token.ofChars?_write hl, Option.bind_some, ofTokens?, hrun]
  rfl

/-! ### What can be read of it -/

mutual

/-- A value comes back from the tree that it became exactly if its brackets are within the
limit. -/
theorem toValue?_nested {k : Nat} (hk : k ≤ depthLimit) (v : Value) (hv : v.Distinct) :
    (nested k v).toValue? = if k + v.depth ≤ depthLimit then some v else none :=
  match v with
  | .null | .bool _ | .number _ | .string _ => by
    simp [nested, toValue?, Value.depth, hk]
  | .array items => by
    rw [nested, Value.depth]
    split
    · next hlimit =>
      rw [toValue?, toValues?_nestedItems hlimit items hv]
      have hiff : k + 1 + Value.itemsDepth items ≤ depthLimit ↔
          k + (Value.itemsDepth items + 1) ≤ depthLimit := by omega
      simp only [hiff]
      split <;> rfl
    · next hlimit =>
      rw [if_neg (by omega)]
      rfl
  | .object entries => by
    rw [nested, Value.depth]
    split
    · next hlimit =>
      rw [toValue?, toEntries?_nestedEntries hlimit entries hv.2]
      have hiff : k + 1 + Value.entriesDepth entries ≤ depthLimit ↔
          k + (Value.entriesDepth entries + 1) ≤ depthLimit := by omega
      simp only [hiff]
      split
      · simp [Keyed.putAll_nil hv.1]
      · rfl
    · next hlimit =>
      rw [if_neg (by omega)]
      rfl

/-- Items are read back within the depth limit, and not beyond. -/
theorem toValues?_nestedItems {k : Nat} (hk : k ≤ depthLimit) (vs : List Value)
    (hvs : Value.AllDistinct vs) :
    toValues? (nestedItems k vs) =
      if k + Value.itemsDepth vs ≤ depthLimit then some vs else none :=
  match vs with
  | [] => by simp [nestedItems, toValues?, Value.itemsDepth, hk]
  | v :: vs => by
    rw [nestedItems, toValues?, toValue?_nested hk v hvs.1, toValues?_nestedItems hk vs hvs.2,
      Value.itemsDepth]
    have hiff : k + max v.depth (Value.itemsDepth vs) ≤ depthLimit ↔
        k + v.depth ≤ depthLimit ∧ k + Value.itemsDepth vs ≤ depthLimit := by omega
    by_cases hv : k + v.depth ≤ depthLimit <;>
      by_cases hrest : k + Value.itemsDepth vs ≤ depthLimit <;> simp [hiff, hv, hrest]

/-- Entries are read back within the depth limit, and not beyond. -/
theorem toEntries?_nestedEntries {k : Nat} (hk : k ≤ depthLimit) (es : List (String × Value))
    (hes : Value.EntriesDistinct es) :
    toEntries? (nestedEntries k es) =
      if k + Value.entriesDepth es ≤ depthLimit then some es else none :=
  match es with
  | [] => by simp [nestedEntries, toEntries?, Value.entriesDepth, hk]
  | (key, v) :: es => by
    rw [nestedEntries, toEntries?, toValue?_nested hk v hes.1,
      toEntries?_nestedEntries hk es hes.2, Value.entriesDepth]
    have hiff : k + max v.depth (Value.entriesDepth es) ≤ depthLimit ↔
        k + v.depth ≤ depthLimit ∧ k + Value.entriesDepth es ≤ depthLimit := by omega
    by_cases hv : k + v.depth ≤ depthLimit <;>
      by_cases hrest : k + Value.entriesDepth es ≤ depthLimit <;> simp [hiff, hv, hrest]

end

/-! ### Without a text in between -/

mutual

/-- A value comes back from its tree, however deep it is. -/
theorem toValue?_ofValue (v : Value) (hv : v.Distinct) : (ofValue v).toValue? = some v :=
  match v with
  | .null | .bool _ | .number _ | .string _ => rfl
  | .array items => by
    rw [ofValue, toValue?, toValues?_ofValues items hv]
    rfl
  | .object entries => by
    rw [ofValue, toValue?, toEntries?_ofEntryValues entries hv.2]
    simp [Keyed.putAll_nil hv.1]

theorem toValues?_ofValues (vs : List Value) (hvs : Value.AllDistinct vs) :
    toValues? (ofValues vs) = some vs :=
  match vs with
  | [] => rfl
  | v :: vs => by
    rw [ofValues, toValues?, toValue?_ofValue v hvs.1, toValues?_ofValues vs hvs.2]
    rfl

theorem toEntries?_ofEntryValues (es : List (String × Value)) (hes : Value.EntriesDistinct es) :
    toEntries? (ofEntryValues es) = some es :=
  match es with
  | [] => rfl
  | (key, v) :: es => by
    rw [ofEntryValues, toEntries?, toValue?_ofValue v hes.1, toEntries?_ofEntryValues es hes.2]
    rfl

end

mutual

/-- Where all brackets are within the limit, a value becomes its tree. -/
theorem nested_eq_ofValue {k : Nat} (v : Value) (h : k + v.depth ≤ depthLimit) :
    nested k v = ofValue v :=
  match v with
  | .null | .bool _ | .number _ | .string _ => rfl
  | .array items => by
    rw [Value.depth] at h
    rw [nested, if_pos (by omega), nestedItems_eq_ofValues items (by omega), ofValue]
  | .object entries => by
    rw [Value.depth] at h
    rw [nested, if_pos (by omega), nestedEntries_eq_ofEntryValues entries (by omega), ofValue]

/-- Within the depth limit the items that are read are the whole items. -/
theorem nestedItems_eq_ofValues {k : Nat} (vs : List Value)
    (h : k + Value.itemsDepth vs ≤ depthLimit) : nestedItems k vs = ofValues vs :=
  match vs with
  | [] => rfl
  | v :: vs => by
    rw [Value.itemsDepth] at h
    rw [nestedItems, nested_eq_ofValue v (by omega), nestedItems_eq_ofValues vs (by omega),
      ofValues]

/-- Within the depth limit the entries that are read are the whole entries. -/
theorem nestedEntries_eq_ofEntryValues {k : Nat} (es : List (String × Value))
    (h : k + Value.entriesDepth es ≤ depthLimit) : nestedEntries k es = ofEntryValues es :=
  match es with
  | [] => rfl
  | (key, v) :: es => by
    rw [Value.entriesDepth] at h
    rw [nestedEntries, nested_eq_ofValue v (by omega),
      nestedEntries_eq_ofEntryValues es (by omega), ofEntryValues]

end

/-- The text of a value within the limit has the tree of the value. -/
theorem ofString?_write_of_depth_le {l : Layout} (hl : l.Blank) {v : Value}
    (h : v.depth ≤ depthLimit) : ofString? (String.ofList (v.write l 0)) = some (ofValue v) := by
  rw [ofString?_write hl, nested_eq_ofValue v (by omega)]

end Tree

/-- The text of a value is read back exactly if its brackets are within the limit. -/
theorem Value.ofString?_write {l : Layout} (hl : l.Blank) {v : Value} (hv : v.Distinct) :
    Value.ofString? (String.ofList (v.write l 0)) =
      if v.depth ≤ depthLimit then some v else none := by
  rw [Value.ofString?, Tree.ofString?_write hl, Option.bind_some,
    Tree.toValue?_nested (Nat.zero_le _) v hv, Nat.zero_add]

/-- What is written on one line is read back, within the depth limit. -/
lemma Value.ofString?_compact {v : Value} (hv : v.Distinct) :
    Value.ofString? v.compact = if v.depth ≤ depthLimit then some v else none :=
  Value.ofString?_write Layout.blank_compact hv

/-- What is written over several lines is read back, within the depth limit. -/
lemma Value.ofString?_indented {v : Value} (hv : v.Distinct) :
    Value.ofString? v.indented = if v.depth ≤ depthLimit then some v else none :=
  Value.ofString?_write Layout.blank_indented hv

/-- An object comes back from its tree. -/
theorem Object.ofTree?_ofValue (o : Object) :
    Object.ofTree? (Tree.ofValue o.toValue) = some o := by
  have hvalue := Tree.toValue?_ofValue o.toValue o.distinct
  unfold Object.ofTree?
  split
  · next entries h =>
    rw [hvalue] at h
    cases h
    rfl
  · next hnone => exact absurd hvalue (hnone _)

end Json

end PlotAnnotation
