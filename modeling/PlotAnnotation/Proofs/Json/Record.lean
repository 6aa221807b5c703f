import PlotAnnotation.Json.Wire
import PlotAnnotation.Proofs.Json.Nesting

/-!
# Records written and read

A record is written as an object, and its fields are looked up in the tree of that object.
`fields?_ofValue` says what is found there: under each name the tree of what the object has under
it, and `unset` where it has nothing.  The objects that are written have distinct keys, so no name
is refused for coming twice.

A wire form may also be written as a text and read from that.  Unless the text is nested too deeply
this makes no difference (`ofString?_toText`).
-/

namespace PlotAnnotation

/-- Distinct keys come at most once each. -/
lemma Keyed.length_filter_le_one {α : Type} {es : List (String × α)} (h : (keys es).Nodup)
    (key : String) : (es.filter (·.1 == key)).length ≤ 1 := by
  have hcount : (es.filter (·.1 == key)).length = (keys es).count key := by
    rw [keys, List.count, List.countP_map, List.countP_eq_length_filter]
    rfl
  rw [hcount]
  exact List.nodup_iff_count_le_one.1 h key

namespace Json

/-! ### The tree of an object -/

namespace Tree

lemma keys_ofEntryValues (es : List (String × Value)) :
    Keyed.keys (ofEntryValues es) = Keyed.keys es := by
  induction es with
  | nil => rfl
  | cons e es ih => rw [ofEntryValues, Keyed.keys_cons, Keyed.keys_cons, ih]

/-- Under a key stands the tree of what the entries have there. -/
lemma find?_ofEntryValues (key : String) (es : List (String × Value)) :
    Keyed.find? key (ofEntryValues es) = (Keyed.find? key es).map ofValue := by
  induction es with
  | nil => rfl
  | cons e es ih =>
    obtain ⟨k, v⟩ := e
    rw [ofEntryValues, Keyed.find?, Keyed.find?, ih]
    split <;> rfl

/-! ### Words -/

/-- A number of 32 bits is read back. -/
lemma toUInt32?_ofUInt32 (n : UInt32) : (ofValue (.ofUInt32 n)).toUInt32? = some n := by
  have hrange : (0 : Int) ≤ n.toNat ∧ (n.toNat : Int) < 2 ^ 32 := by
    have := n.toNat_lt
    omega
  have hint : (ofValue (.ofUInt32 n)).toInt? = some (n.toNat : Int) := rfl
  rw [toUInt32?, hint, Option.bind_eq_bind, Option.bind_some, if_pos hrange,
    Int.toNat_natCast, UInt32.ofNat_toNat]
  rfl

/-- A number of 64 bits is read back. -/
lemma toUInt64?_ofUInt64 (n : UInt64) : (ofValue (.ofUInt64 n)).toUInt64? = some n := by
  have hint : (ofValue (.ofUInt64 n)).toInt? = some (n.toNat : Int) := rfl
  rw [toUInt64?, hint, Option.bind_eq_bind, Option.bind_some, if_pos (Int.natCast_nonneg _),
    Int.toNat_natCast, UInt64.ofNat_toNat]
  rfl

end Tree

/-! ### The fields of a record -/

/-- What a record's tree has for a field where its object has the given member. -/
def Slot.ofMember : Option Value → Slot
  | some v => .given (Tree.ofValue v)
  | none => .unset

/-- The fields of a record are what its object has under their names. -/
theorem fields?_ofValue (names : List String) {es : List (String × Value)}
    (h : (Keyed.keys es).Nodup) :
    fields? names (Tree.ofValue (.object es)) =
      some fun name => Slot.ofMember (Keyed.find? name es) := by
  have hkeys : (Keyed.keys (Tree.ofEntryValues es)).Nodup := by
    rw [Tree.keys_ofEntryValues]
    exact h
  have honce : names.all fun name =>
      ((Tree.ofEntryValues es).filter (·.1 == name)).length ≤ 1 := by
    rw [List.all_eq_true]
    exact fun name _ => decide_eq_true (Keyed.length_filter_le_one hkeys name)
  rw [Tree.ofValue, fields?, if_pos honce]
  congr 1
  funext name
  rw [Tree.find?_ofEntryValues]
  cases Keyed.find? name es <;> rfl

/-- From the text of a wire form the same is read as from the form. -/
theorem ofString?_toText {α : Type} [Wire α] {a : α}
    (h : (Wire.toValue a).depth ≤ depthLimit) :
    ofString? α (toText a) = ofValue? (Wire.toValue a) := by
  rw [ofString?, toText, Value.compact, Tree.ofString?_write_of_depth_le Layout.blank_compact h]
  rfl

/-- A field with a text that may be missing is read back, whether it is written or left out. -/
lemma Slot.orDefault_text (s : Option String) :
    (Slot.ofMember (s.map .string)).orDefault (Slot.nullable Tree.toText?) none = some s := by
  cases s <;> rfl

/-- A text that is written as `null` where it is missing is read back. -/
lemma Slot.optional_text (s : Option String) :
    (Slot.ofMember (some (.ofText? s))).optional Tree.toText? = some s := by
  cases s <;> rfl

end Json

end PlotAnnotation
