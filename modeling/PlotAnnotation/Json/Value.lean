import PlotAnnotation.Arithmetic
import PlotAnnotation.Decimal.Binary64
import PlotAnnotation.Keyed

/-!
# JSON values

A number is either an integer of 64 bits, signed or not, or a finite double; the two are kept apart.
An object is a list of entries in the order they are written.  `Value.Distinct` says that no object
within a value has two entries under one key, and `Object` is an object of which this holds.
-/

namespace PlotAnnotation.Json

open scoped Arithmetic

/-- A number: an integer that has 64 bits with or without sign, or a finite double. -/
inductive Number where
  | int (n : Int) (lower : -2 ^ 63 ≤ n) (upper : n < 2 ^ 64)
  | float (x : Float) (finite : x.isFinite = true)
deriving DecidableEq, Repr

/-- A JSON value. -/
inductive Value where
  | null
  | bool (b : Bool)
  | number (n : Number)
  | string (s : String)
  | array (items : List Value)
  | object (entries : List (String × Value))
deriving Repr, Inhabited

namespace Number

/-- The double that a number is, or that is nearest to it. -/
def toFloat : Number → Float
  | int n _ _ => Binary64.ofInt n
  | float x _ => x

/-- The integer that a number is written as. -/
def toInt? : Number → Option Int
  | int n _ _ => some n
  | float _ _ => none

end Number

namespace Value

/-- A number of 64 bits without sign. -/
def ofUInt64 (n : UInt64) : Value :=
  number (.int n.toNat (by omega) (by have := n.toNat_lt; omega))

/-- A number of 32 bits without sign. -/
def ofUInt32 (n : UInt32) : Value :=
  number (.int n.toNat (by omega) (by have := n.toNat_lt; omega))

/-- A number of 64 bits with sign. -/
def ofInt64 (n : Int64) : Value :=
  number (.int n.toInt (by have := n.le_toInt; omega) (by have := n.toInt_lt; omega))

/-- A double; what is not finite becomes `null`. -/
def ofFloat (x : Float) : Value :=
  if h : x.isFinite = true then number (.float x h) else null

/-- A text, or `null`. -/
def ofText? : Option String → Value
  | some s => string s
  | none => null

/-- What an object has under a key. -/
def member? (key : String) : Value → Option Value
  | object entries => Keyed.find? key entries
  | _ => none

/-- What is found by following keys from object to object. -/
def at? : List String → Value → Option Value
  | [], v => some v
  | key :: path, v => (v.member? key).bind (at? path)

/-- The text that a value is. -/
def text? : Value → Option String
  | string s => some s
  | _ => none

/-! ### Equality -/

mutual

/-- Whether two values are equal, entries in the same order. -/
def same : Value → Value → Bool
  | null, null => true
  | bool a, bool b => a == b
  | number a, number b => a == b
  | string a, string b => a == b
  | array a, array b => sameItems a b
  | object a, object b => sameEntries a b
  | _, _ => false

/-- Equality item by item. -/
def sameItems : List Value → List Value → Bool
  | [], [] => true
  | a :: as, b :: bs => same a b && sameItems as bs
  | _, _ => false

/-- Equality entry by entry. -/
def sameEntries : List (String × Value) → List (String × Value) → Bool
  | [], [] => true
  | (j, a) :: as, (k, b) :: bs => j == k && same a b && sameEntries as bs
  | _, _ => false

end

mutual

/-- Two values are found the same exactly if they are equal. -/
theorem same_iff : ∀ a b : Value, same a b = true ↔ a = b
  | null, b | bool _, b | number _, b | string _, b => by cases b <;> simp [same]
  | array a, b => by
    cases b <;> simp [same, sameItems_iff a]
  | object a, b => by
    cases b <;> simp [same, sameEntries_iff a]

/-- Two lists of values are found the same exactly if they are equal. -/
theorem sameItems_iff : ∀ a b : List Value, sameItems a b = true ↔ a = b
  | [], b => by cases b <;> simp [sameItems]
  | a :: as, b => by cases b <;> simp [sameItems, same_iff a, sameItems_iff as]

/-- Two lists of entries are found the same exactly if they are equal. -/
theorem sameEntries_iff : ∀ a b : List (String × Value), sameEntries a b = true ↔ a = b
  | [], b => by cases b <;> simp [sameEntries]
  | (_, a) :: as, b => by
    match b with
    | [] => simp [sameEntries]
    | (_, b) :: bs => simp [sameEntries, same_iff a, sameEntries_iff as]

end

instance : DecidableEq Value := fun a b =>
  decidable_of_iff (same a b = true) (same_iff a b)

/-! ### Distinct keys -/

mutual

/-- No object within the value has two entries under one key. -/
def Distinct : Value → Prop
  | array items => AllDistinct items
  | object entries => (Keyed.keys entries).Nodup ∧ EntriesDistinct entries
  | _ => True

/-- Every item has distinct keys. -/
def AllDistinct : List Value → Prop
  | [] => True
  | v :: vs => Distinct v ∧ AllDistinct vs

/-- What is under every key has distinct keys. -/
def EntriesDistinct : List (String × Value) → Prop
  | [] => True
  | (_, v) :: es => Distinct v ∧ EntriesDistinct es

end

/-- Keys are distinct in a list of values if they are in each of them. -/
theorem allDistinct_iff {items : List Value} : AllDistinct items ↔ ∀ v ∈ items, Distinct v := by
  induction items with
  | nil => simp [AllDistinct]
  | cons v vs ih => simp [AllDistinct, ih]

/-- Keys are distinct within entries if they are in each of their values. -/
theorem entriesDistinct_iff {entries : List (String × Value)} :
    EntriesDistinct entries ↔ ∀ e ∈ entries, Distinct e.2 := by
  induction entries with
  | nil => simp [EntriesDistinct]
  | cons e es ih => simp [EntriesDistinct, ih]

/-- Writing a value with distinct keys keeps those of the others. -/
theorem entriesDistinct_put {key : String} {v : Value} {entries : List (String × Value)}
    (hv : Distinct v) (h : EntriesDistinct entries) :
    EntriesDistinct (Keyed.put key v entries) := by
  induction entries with
  | nil => exact ⟨hv, trivial⟩
  | cons e es ih =>
    obtain ⟨k, w⟩ := e
    simp only [Keyed.put, Keyed.update]
    split
    · exact ⟨hv, h.2⟩
    · exact ⟨h.1, ih h.2⟩

end Value

/-- An object with distinct keys at every depth. -/
structure Object where
  entries : List (String × Value)
  distinct : (Value.object entries).Distinct
deriving DecidableEq

namespace Object

/-- The object without entries. -/
def empty : Object where
  entries := []
  distinct := by simp [Value.Distinct, Value.EntriesDistinct]

/-- An object as a value. -/
def toValue (o : Object) : Value :=
  .object o.entries

/-- What an object has under a key. -/
def find? (o : Object) (key : String) : Option Value :=
  Keyed.find? key o.entries

/-- Writes a value under a key. -/
def put (o : Object) (key : String) (v : Value) (hv : v.Distinct) : Object where
  entries := Keyed.put key v o.entries
  distinct := ⟨Keyed.nodup_put o.distinct.1, Value.entriesDistinct_put hv o.distinct.2⟩

end Object

end PlotAnnotation.Json
