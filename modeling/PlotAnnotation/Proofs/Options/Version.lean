import PlotAnnotation.Proofs.Options.RoundTrip

/-!
# Options under a version

A text whose object has a version is taken for a contract, whatever else is in it.  Its options are
then read by the reader that bare options are read by, so a contract of the current version gives
what its options give by themselves (`ofValue_eq_ok_iff`).  This holds of every value that may stand
there, an array or a value of the wrong kind too, since neither way looks at the value before that
reader does.

No other version is accepted.  One that is an unsigned integer of 32 bits is named in the fault, if
the options can be read; all else is no contract at all.
-/

namespace PlotAnnotation

open Json

/-- The unsigned integers of 32 bits are read from themselves and from nothing else. -/
lemma Json.Tree.toUInt32?_ofValue_eq_some_iff {v : Value} {n : UInt32} :
    (Tree.ofValue v).toUInt32? = some n ↔ v = .ofUInt32 n := by
  constructor
  · intro h
    cases v with
    | number x =>
      cases x with
      | int i lower upper =>
        have hint : (Tree.ofValue (.number (.int i lower upper))).toInt? = some i := rfl
        rw [toUInt32?, hint, Option.bind_eq_bind, Option.bind_some] at h
        split at h
        · next hrange =>
          obtain rfl := Option.some.inj h
          have hi : ((UInt32.ofNat i.toNat).toNat : Int) = i := by
            rw [UInt32.toNat_ofNat', Nat.mod_eq_of_lt (by omega), Int.toNat_of_nonneg hrange.1]
          simp only [Value.ofUInt32, hi]
        · contradiction
      | float x finite => contradiction
    | null => contradiction
    | bool b => contradiction
    | string s => contradiction
    | array items => contradiction
    | object entries => contradiction
  · rintro rfl
    exact Json.Tree.toUInt32?_ofUInt32 n

/-- A field that must be there is read from the member of the object. -/
lemma Json.Slot.required_ofMember_eq_some_iff {α : Type} {read : Tree → Option α}
    {member : Option Value} {a : α} :
    (Slot.ofMember member).required read = some a ↔
      ∃ v, member = some v ∧ read (Tree.ofValue v) = some a := by
  cases member with
  | none => exact iff_of_false (Option.some_ne_none a).symm (by simp)
  | some v => simp [ofMember, required]

namespace Contract

/-- What a value with a version must be to be a contract: the version is an unsigned integer of 32
bits, and there are options that can be read. -/
lemma ofValue?_eq_some_iff {v version : Value} (hv : v.Distinct)
    (hversion : v.member? versionKey = some version) {c : Contract} :
    ofValue? v = some c ↔ version = .ofUInt32 c.version ∧
      ∃ bare, v.member? "options" = some bare ∧ ofValue? bare = some c.options := by
  cases v with
  | object entries =>
    have hread : (ofValue? (.object entries) : Option Contract) =
        (fields? [versionKey, "options"] (Tree.ofValue (.object entries))).bind fun field =>
          ((field versionKey).required Tree.toUInt32?).bind fun version =>
            ((field "options").required Wire.ofTree?).bind fun options =>
              some (Contract.mk version options) := rfl
    change Keyed.find? versionKey entries = some version at hversion
    rw [hread, fields?_ofValue _ hv.1, Option.bind_some]
    simp only [Option.bind_eq_some_iff, Slot.required_ofMember_eq_some_iff, hversion,
      Tree.toUInt32?_ofValue_eq_some_iff, Option.some.injEq, exists_eq_left']
    constructor
    · rintro ⟨n, hn, options, hoptions, rfl⟩
      exact ⟨hn, hoptions⟩
    · rintro ⟨hn, hoptions⟩
      exact ⟨c.version, hn, c.options, hoptions, rfl⟩
  | null => contradiction
  | bool b => contradiction
  | number n => contradiction
  | string s => contradiction
  | array items => contradiction

/-- A contract is accepted exactly if it has the current version. -/
lemma accept_eq_ok_iff {c : Contract} {o : GraphOptions} :
    c.accept = .ok o ↔ c.version = currentVersion ∧ c.options = o := by
  unfold accept
  split
  · next h => simp [h]
  · next h => simp [h]

end Contract

namespace GraphOptions

/-- A value without a version is read as bare options. -/
lemma ofValue_eq_ok_iff_of_bare {v : Value} (h : v.member? Contract.versionKey = none)
    {o : GraphOptions} : ofValue v = .ok o ↔ ofValue? v = some o := by
  unfold ofValue
  rw [h]
  cases (ofValue? v : Option GraphOptions) <;> simp

section Version

variable {v version : Value} (hv : v.Distinct)
  (hversion : v.member? Contract.versionKey = some version)

include hv hversion

/-- A value with a version is read exactly if this is the current one and its options are read. -/
theorem ofValue_eq_ok_iff {o : GraphOptions} :
    ofValue v = .ok o ↔ version = .ofUInt32 Contract.currentVersion ∧
      ∃ bare, v.member? "options" = some bare ∧ ofValue? bare = some o := by
  unfold ofValue
  rw [hversion]
  constructor
  · intro h
    simp only at h
    split at h
    · next c hc =>
      obtain ⟨hcurrent, rfl⟩ := Contract.accept_eq_ok_iff.1 h
      rw [← hcurrent]
      exact (Contract.ofValue?_eq_some_iff hv hversion).1 hc
    · contradiction
  · rintro ⟨hcurrent, hoptions⟩
    have hc : ofValue? v = some (Contract.mk Contract.currentVersion o) :=
      (Contract.ofValue?_eq_some_iff hv hversion).2 ⟨hcurrent, hoptions⟩
    simp only [hc]
    exact Contract.accept_eq_ok_iff.2 ⟨rfl, rfl⟩

/-- Options that can be read are refused under any other version, which is named. -/
lemma ofValue_eq_error_of_ne {n : UInt32} (hn : version = .ofUInt32 n)
    (hne : n ≠ Contract.currentVersion) {bare : Value} (hbare : v.member? "options" = some bare)
    {o : GraphOptions} (ho : ofValue? bare = some o) : ofValue v = .error (.contractVersion n) := by
  have hc : ofValue? v = some (Contract.mk n o) :=
    (Contract.ofValue?_eq_some_iff hv hversion).2 ⟨hn, bare, hbare, ho⟩
  unfold ofValue
  rw [hversion]
  simp only [hc]
  exact if_neg hne

/-- A version that is no unsigned integer of 32 bits makes no contract. -/
lemma ofValue_eq_error_of_forall_ne (h : ∀ n, version ≠ .ofUInt32 n) :
    ofValue v = .error .contract := by
  have hc : (ofValue? v : Option Contract) = none := by
    rw [Option.eq_none_iff_forall_ne_some]
    intro c hc
    exact h c.version ((Contract.ofValue?_eq_some_iff hv hversion).1 hc).1
  unfold ofValue
  rw [hversion]
  simp only [hc]

end Version

/-! ### Texts -/

/-- Options are read from a text by way of the value that the text stands for. -/
lemma ofText_of_value {s : String} {v : Value} (h : Value.ofString? s = some v) :
    ofText s = ofValue v := by
  rw [ofText, h]

/-- Keys are distinct in a value that was read from a text. -/
lemma distinct_of_ofString? {s : String} {v : Value} (h : Value.ofString? s = some v) :
    v.Distinct := by
  obtain ⟨t, -, ht⟩ := Option.bind_eq_some_iff.1 h
  exact Tree.distinct_of_toValue? ht

/-- **Options under a version.**  Let a text be that of an object with a version, in any place and
among any other entries.  If its options are the value of another text that has no version itself,
then under the current version it is read exactly if that text is, and as the same options; under
any other unsigned integer of 32 bits it is refused with a fault that names this version, if that
text is read.  Under a version that is anything else it is refused whatever else it has.  Hence
nothing is read under any version but the current one. -/
theorem ofText_of_version {t : String} {v version : Value} (ht : Value.ofString? t = some v)
    (hversion : v.member? "schema_version" = some version) :
    (∀ s bare, Value.ofString? s = some bare → bare.member? "schema_version" = none →
      v.member? "options" = some bare →
      (version = .ofUInt32 1 → ∀ o, ofText t = .ok o ↔ ofText s = .ok o) ∧
      ∀ n o, version = .ofUInt32 n → n ≠ 1 → ofText s = .ok o →
        ∃ fault, ofText t = .error fault ∧ fault = .contractVersion n ∧
          fault.message = "serialization failed: unsupported graph options schema version: " ++
            naturalText n.toNat) ∧
    ((∀ n, version ≠ .ofUInt32 n) → ofText t = .error .contract) ∧
    ∀ o, ofText t = .ok o → version = .ofUInt32 1 := by
  have hv := distinct_of_ofString? ht
  rw [ofText_of_value ht]
  refine ⟨fun s bare hs hbare hoptions => ?_, ofValue_eq_error_of_forall_ne hv hversion,
    fun o ho => ((ofValue_eq_ok_iff hv hversion).1 ho).1⟩
  have hread : ∀ o, ofText s = .ok o ↔ ofValue? bare = some o := by
    intro o
    rw [ofText_of_value hs, ofValue_eq_ok_iff_of_bare hbare]
  refine ⟨fun hcurrent o => ?_, fun n o hn hne ho => ?_⟩
  · rw [hread, ofValue_eq_ok_iff hv hversion, hoptions]
    simp [hcurrent, Contract.currentVersion]
  · exact ⟨_, ofValue_eq_error_of_ne hv hversion hn hne hoptions ((hread o).1 ho), rfl, rfl⟩

/-- Options as an array of their fields, of which only the first is there. -/
def listed : Value :=
  .array [.array [.array [.ofInt64 (-1), .ofFloat 1.5]]]

/-- A contract with its version last and an entry of its own. -/
def noted (version : UInt32) : Value :=
  .object [("note", .object []), ("options", listed), ("schema_version", .ofUInt32 version)]

/-- The text of such a contract. -/
def notedText (version : String) : String :=
  "\x7b\"note\":\x7b\x7d,\"options\":[[[-1,1.5]]],\"schema_version\":" ++ version ++ "\x7d"

/-- The same data are read bare and within a contract, and refused under another version. -/
theorem ofText_of_version_noted :
    Value.ofString? "[[[-1, 1.5]]]" = some listed ∧
    Value.ofString? (notedText "1") = some (noted 1) ∧
    Value.ofString? (notedText "2") = some (noted 2) ∧
    ∃ o, ofText "[[[-1, 1.5]]]" = .ok o ∧ ofText (notedText "1") = .ok o ∧
      ofText (notedText "2") = .error (.contractVersion 2) := by
  have hlisted : Value.ofString? "[[[-1, 1.5]]]" = some listed := by
    decide +kernel
  have hcurrent : Value.ofString? (notedText "1") = some (noted 1) := by
    decide +kernel
  have hnext : Value.ofString? (notedText "2") = some (noted 2) := by
    decide +kernel
  have hread : ofText "[[[-1, 1.5]]]" = .ok { data := [⟨-1, 1.5⟩] } := by
    decide +kernel
  obtain ⟨haccepted, -⟩ := (ofText_of_version hcurrent rfl).1 _ _ hlisted rfl rfl
  obtain ⟨-, hrefused⟩ := (ofText_of_version hnext rfl).1 _ _ hlisted rfl rfl
  obtain ⟨_, hfault, rfl, -⟩ := hrefused 2 _ rfl (by decide) hread
  exact ⟨hlisted, hcurrent, hnext, _, hread, (haccepted rfl _).2 hread, hfault⟩

end GraphOptions

end PlotAnnotation
