import PlotAnnotation.Json.Token

/-!
# JSON as it is written

A `Tree` is a text of JSON with everything that reading a value loses: entries that come again
under one key, and parts that are well formed but cannot be read.  Those are numerals too large for
a double, texts and keys with half a character, and whatever is nested deeper than `depthLimit`.  A
record that leaves such a part aside can still be read.

A tree is built from its tokens by a machine with a stack of the brackets that are open.  A comma
has a state of its own for what may come after it, so no closing bracket follows a comma.
-/

namespace PlotAnnotation.Json

/-- JSON as it is written. -/
inductive Tree where
  | null
  | bool (b : Bool)
  | number (n : Number)
  | string (s : String)
  | array (items : List Tree)
  | object (entries : List (String × Tree))
  /-- A part that is well formed and cannot be read. -/
  | unreadable
deriving Repr, Inhabited

/-- How many brackets may be open around what is read. -/
def depthLimit : Nat := 127

namespace Tree

/-- An open bracket and what stands in it so far, last first.  In an object the key of the value
under way is held apart. -/
inductive Frame where
  | array (before : List Tree)
  | object (before : List (Option String × Tree)) (key : Option String)
deriving Repr

/-- What may come next. -/
inductive State where
  /-- A value. -/
  | value (stack : List Frame)
  /-- The first item of an array, or its end. -/
  | item (stack : List Frame)
  /-- The first key of an object, or its end. -/
  | entry (stack : List Frame)
  /-- A key. -/
  | key (before : List (Option String × Tree)) (stack : List Frame)
  /-- The colon after a key. -/
  | colon (before : List (Option String × Tree)) (key : Option String) (stack : List Frame)
  /-- What comes after a value. -/
  | after (t : Tree) (stack : List Frame)
deriving Repr

/-- A bracket that is complete, with the brackets open around it.  Beyond the limit it cannot be
read. -/
def sealed (stack : List Frame) (t : Tree) : Tree :=
  if stack.length < depthLimit then t else unreadable

/-- The object of the given entries, if every key can be read. -/
def ofEntries (entries : List (Option String × Tree)) : Tree :=
  match entries.mapM fun (key, t) => key.map (·, t) with
  | some entries => object entries
  | none => unreadable

/-- The tree of a token that is a value by itself. -/
def ofToken? : Token → Option Tree
  | .null => some null
  | .bool b => some (bool b)
  | .number (some n) => some (number n)
  | .number none => some unreadable
  | .text (some s) => some (string s)
  | .text none => some unreadable
  | _ => none

/-- A token where a value must come. -/
def startValue (stack : List Frame) : Token → Option State
  | .openArray => some (.item stack)
  | .openObject => some (.entry stack)
  | t => (ofToken? t).map (.after · stack)

/-- One token. -/
def step : State → Token → Option State
  | .value stack, t => startValue stack t
  | .item stack, .closeArray => some (.after (sealed stack (array [])) stack)
  | .item stack, t => startValue (.array [] :: stack) t
  | .entry stack, .closeObject => some (.after (sealed stack (object [])) stack)
  | .entry stack, .text s => some (.colon [] s stack)
  | .key before stack, .text s => some (.colon before s stack)
  | .colon before key stack, .colon => some (.value (.object before key :: stack))
  | .after t (.array before :: stack), .comma => some (.value (.array (t :: before) :: stack))
  | .after t (.array before :: stack), .closeArray =>
    some (.after (sealed stack (array (t :: before).reverse)) stack)
  | .after t (.object before key :: stack), .comma => some (.key ((key, t) :: before) stack)
  | .after t (.object before key :: stack), .closeObject =>
    some (.after (sealed stack (ofEntries ((key, t) :: before).reverse)) stack)
  | _, _ => none

/-- The tree, if the tokens end after a value with no bracket open. -/
def finish : State → Option Tree
  | .after t [] => some t
  | _ => none

/-- The tree of a list of tokens. -/
def ofTokens? (tokens : List Token) : Option Tree :=
  (tokens.foldlM step (.value [])).bind finish

/-- The tree of a text. -/
def ofString? (s : String) : Option Tree :=
  (Token.ofChars? s.toList).bind ofTokens?

/-! ### Trees and values -/

mutual

/-- The value of a tree all of which can be read.  An entry whose key comes again takes the place
of the first one and the value of the last. -/
def toValue? : Tree → Option Value
  | null => some .null
  | bool b => some (.bool b)
  | number n => some (.number n)
  | string s => some (.string s)
  | array items => (toValues? items).map .array
  | object entries => (toEntries? entries).map fun es => .object (Keyed.putAll [] es)
  | unreadable => none

/-- The values of items. -/
def toValues? : List Tree → Option (List Value)
  | [] => some []
  | t :: ts => do return (← toValue? t) :: (← toValues? ts)

/-- The values of entries, under keys that may come again. -/
def toEntries? : List (String × Tree) → Option (List (String × Value))
  | [] => some []
  | (key, t) :: es => do return (key, ← toValue? t) :: (← toEntries? es)

end

mutual

/-- A value as it would be written. -/
def ofValue : Value → Tree
  | .null => null
  | .bool b => bool b
  | .number n => number n
  | .string s => string s
  | .array items => array (ofValues items)
  | .object entries => object (ofEntryValues entries)

/-- Items as they would be written. -/
def ofValues : List Value → List Tree
  | [] => []
  | v :: vs => ofValue v :: ofValues vs

/-- Entries as they would be written. -/
def ofEntryValues : List (String × Value) → List (String × Tree)
  | [] => []
  | (key, v) :: es => (key, ofValue v) :: ofEntryValues es

end

/-- Writing entries one after the other keeps keys distinct within the values. -/
theorem entriesDistinct_putAll {es new : List (String × Value)} (h : Value.EntriesDistinct es)
    (hn : Value.EntriesDistinct new) : Value.EntriesDistinct (Keyed.putAll es new) := by
  induction new generalizing es with
  | nil => exact h
  | cons e new ih => exact ih (Value.entriesDistinct_put hn.1 h) hn.2

mutual

/-- A value that was read has distinct keys. -/
theorem distinct_of_toValue? : ∀ {t : Tree} {v : Value}, toValue? t = some v → v.Distinct
  | unreadable, v, h => by simp [toValue?] at h
  | null, v, h | bool _, v, h | number _, v, h | string _, v, h => by
    simp only [toValue?, Option.some.injEq] at h
    subst h
    trivial
  | array items, v, h => by
    simp only [toValue?, Option.map_eq_some_iff] at h
    obtain ⟨vs, hvs, rfl⟩ := h
    simpa [Value.Distinct] using allDistinct_of_toValues? hvs
  | object entries, v, h => by
    simp only [toValue?, Option.map_eq_some_iff] at h
    obtain ⟨es, hes, rfl⟩ := h
    exact ⟨Keyed.nodup_putAll List.nodup_nil,
      entriesDistinct_putAll trivial (entriesDistinct_of_toEntries? hes)⟩

/-- Keys are distinct in each of the values that are read from trees. -/
theorem allDistinct_of_toValues? : ∀ {ts : List Tree} {vs : List Value},
    toValues? ts = some vs → Value.AllDistinct vs
  | [], vs, h => by
    simp only [toValues?, Option.some.injEq] at h
    subst h
    trivial
  | t :: ts, vs, h => by
    simp only [toValues?, Option.bind_eq_bind, Option.bind_eq_some_iff] at h
    obtain ⟨v, hv, ws, hws, h⟩ := h
    cases h
    exact ⟨distinct_of_toValue? hv, allDistinct_of_toValues? hws⟩

/-- Keys are distinct in each of the entries that are read from trees. -/
theorem entriesDistinct_of_toEntries? : ∀ {ts : List (String × Tree)}
    {es : List (String × Value)}, toEntries? ts = some es → Value.EntriesDistinct es
  | [], es, h => by
    simp only [toEntries?, Option.some.injEq] at h
    subst h
    trivial
  | (key, t) :: ts, es, h => by
    simp only [toEntries?, Option.bind_eq_bind, Option.bind_eq_some_iff] at h
    obtain ⟨v, hv, ws, hws, h⟩ := h
    cases h
    exact ⟨distinct_of_toValue? hv, entriesDistinct_of_toEntries? hws⟩

end

end Tree

/-- The value of a text. -/
def Value.ofString? (s : String) : Option Value :=
  (Tree.ofString? s).bind Tree.toValue?

/-- The object that a tree is. -/
def Object.ofTree? (t : Tree) : Option Object :=
  match h : t.toValue? with
  | some (.object entries) => some ⟨entries, Tree.distinct_of_toValue? h⟩
  | _ => none

end PlotAnnotation.Json
