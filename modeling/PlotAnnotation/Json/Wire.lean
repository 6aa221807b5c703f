import PlotAnnotation.Arithmetic
import PlotAnnotation.Json.Printer
import PlotAnnotation.Json.Tree

/-!
# Types with a wire form

A type with a wire form is written as a JSON value and read from a tree.  Reading is more generous
than writing.  A record is written as an object with its fields in order; it may be read from such
an object in any order, with other entries in between, or from an array of its fields in order.  A
field may be required, may be optional, or may have a default.  A name may be read from the name
itself or from an object that has `null` under it.
-/

namespace PlotAnnotation.Json

open scoped Arithmetic

/-- Types that are written as JSON and read from it. -/
class Wire (α : Type) where
  /-- The wire form. -/
  toValue : α → Value
  /-- Reads a wire form. -/
  ofTree? : Tree → Option α

/-- Reads a text. -/
def ofString? (α : Type) [Wire α] (s : String) : Option α :=
  (Tree.ofString? s).bind Wire.ofTree?

/-- Reads a value. -/
def ofValue? {α : Type} [Wire α] (v : Value) : Option α :=
  Wire.ofTree? (Tree.ofValue v)

/-- The wire form as text on one line. -/
def toText {α : Type} [Wire α] (a : α) : String :=
  (Wire.toValue a).compact

namespace Tree

/-- Any number, as a double. -/
def toFloat? : Tree → Option Float
  | number n => some n.toFloat
  | _ => none

/-- A truth value. -/
def toBool? : Tree → Option Bool
  | bool b => some b
  | _ => none

/-- A text. -/
def toText? : Tree → Option String
  | string s => some s
  | _ => none

/-- An integer. -/
def toInt? : Tree → Option Int
  | number n => n.toInt?
  | _ => none

/-- An integer of 64 bits without sign. -/
def toUInt64? (t : Tree) : Option UInt64 := do
  let n ← t.toInt?
  if 0 ≤ n then return UInt64.ofNat n.toNat else none

/-- An integer of 32 bits without sign. -/
def toUInt32? (t : Tree) : Option UInt32 := do
  let n ← t.toInt?
  if 0 ≤ n ∧ n < 2 ^ 32 then return UInt32.ofNat n.toNat else none

/-- An array of things read one by one. -/
def toList? {α : Type} (read : Tree → Option α) : Tree → Option (List α)
  | array items => items.mapM read
  | _ => none

/-- A name, alone or as the key of `null`. -/
def toName? : Tree → Option String
  | string s => some s
  | object [(key, null)] => some key
  | _ => none

end Tree

/-- What a record's tree has for one field. -/
inductive Slot where
  /-- A tree. -/
  | given (t : Tree)
  /-- Nothing, in an object. -/
  | unset
  /-- Nothing, in an array that ended before. -/
  | cut
deriving Repr

namespace Slot

/-- A field that must be there. -/
def required {α : Type} (read : Tree → Option α) : Slot → Option α
  | given t => read t
  | _ => none

/-- A field with a default. -/
def orDefault {α : Type} (read : Tree → Option α) (default : α) : Slot → Option α
  | given t => read t
  | _ => some default

/-- A tree that may be `null`. -/
def nullable {α : Type} (read : Tree → Option α) : Tree → Option (Option α)
  | .null => some none
  | t => (read t).map some

/-- A field that may be `null`, and may be left out of an object. -/
def optional {α : Type} (read : Tree → Option α) : Slot → Option (Option α)
  | unset => some none
  | s => s.required (nullable read)

end Slot

/-- The fields of a record with the given names.  In an object no name may come twice; an array may
not have more items than there are names. -/
def fields? (names : List String) : Tree → Option (String → Slot)
  | .object entries =>
    if names.all fun name => (entries.filter (·.1 == name)).length ≤ 1 then
      some fun name => ((Keyed.find? name entries).map Slot.given).getD .unset
    else none
  | .array items =>
    if items.length ≤ names.length then
      some fun name => (items[names.idxOf name]?.map Slot.given).getD .cut
    else none
  | _ => none

end PlotAnnotation.Json
