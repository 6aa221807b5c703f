import Mathlib.Tactic.Lemma
import PlotAnnotation.Text.Percent

/-!
# Octets with escapes and their reading

Octets may be written with any of them escaped, in digits of either case, as long as every `%` is.
`Escapes` says which writings of octets these are.  All of them are read as the octets they were
made from (`decode_of_escapes`).

An octet that is neither `%` nor a hexadecimal digit has no part in any escape.  It cuts octets in
two that are read by themselves, even where it cuts an escape short (`decode_append_of_bare`).
-/

namespace PlotAnnotation.Text.Percent

/-! ### Reading step by step -/

/-- An escape is read as its octet. -/
lemma decode_escape {high low octet : UInt8} (h : escaped high low = some octet)
    (rest : List UInt8) : decode (percent :: high :: low :: rest) = octet :: decode rest := by
  rw [decode, if_pos rfl, h]

/-- A `%` that starts no escape stands for itself. -/
lemma decode_percent {bs : List UInt8}
    (h : ∀ high low rest, bs = high :: low :: rest → escaped high low = none) :
    decode (percent :: bs) = percent :: decode bs := by
  match bs with
  | [] => rfl
  | [_] => rfl
  | high :: low :: rest => rw [decode, if_pos rfl, h high low rest rfl]

/-- Without a value of its second digit an escape has none. -/
lemma escaped_eq_none {high low : UInt8} (h : hexValue high = none ∨ hexValue low = none) :
    escaped high low = none := by
  unfold escaped
  rcases h with h | h
  · rw [h]
  · rw [h]
    cases hexValue high <;> rfl

/-! ### Cuts -/

/-- An octet that is neither `%` nor a digit cuts octets in two. -/
theorem decode_append_of_bare (before : List UInt8) {b : UInt8} (hpercent : b ≠ percent)
    (hdigit : hexValue b = none) (after : List UInt8) :
    decode (before ++ b :: after) = decode before ++ b :: decode after := by
  match before with
  | [] => exact decode_cons_of_ne hpercent after
  | a :: before =>
    by_cases ha : a = percent
    · subst ha
      match before with
      | [] =>
        -- the octet would have to be the first digit
        have hnone : ∀ high low rest, b :: after = high :: low :: rest →
            escaped high low = none := by
          rintro high low rest ⟨⟩
          exact escaped_eq_none (.inl hdigit)
        rw [List.singleton_append, decode_percent hnone, decode_cons_of_ne hpercent]
        rfl
      | [c] =>
        -- the octet would have to be the second digit
        have hnone : ∀ high low rest, c :: b :: after = high :: low :: rest →
            escaped high low = none := by
          rintro high low rest ⟨⟩
          exact escaped_eq_none (.inr hdigit)
        have ih := decode_append_of_bare [c] hpercent hdigit after
        rw [List.singleton_append] at ih
        rw [List.cons_append, List.singleton_append, decode_percent hnone, ih]
        rfl
      | high :: low :: rest =>
        cases h : escaped high low with
        | some octet =>
          rw [List.cons_append, List.cons_append, List.cons_append, decode_escape h,
            decode_escape h, decode_append_of_bare rest hpercent hdigit after, List.cons_append]
        | none =>
          have hnone : ∀ tail high' low' rest', high :: low :: tail = high' :: low' :: rest' →
              escaped high' low' = none := by
            rintro tail high' low' rest' ⟨⟩
            exact h
          have ih := decode_append_of_bare (high :: low :: rest) hpercent hdigit after
          rw [List.cons_append, List.cons_append] at ih
          rw [List.cons_append, List.cons_append, List.cons_append, decode_percent (hnone _), ih,
            decode_percent (hnone _), List.cons_append]
    · rw [List.cons_append, decode_cons_of_ne ha, decode_cons_of_ne ha,
        decode_append_of_bare before hpercent hdigit after, List.cons_append]
termination_by before.length

/-- An escape of `|` that a `|` cuts short is none. -/
example : decode [percent, 0x37, 0x7C, 0x43] = [percent, 0x37, 0x7C, 0x43] := by
  decide

/-! ### Escapes -/

/-- The octet that writes a hexadecimal digit, with a capital letter or a small one. -/
def digit (capital : Bool) (n : Nat) : UInt8 :=
  UInt8.ofNat (if n < 10 then 0x30 + n else if capital then 0x41 + (n - 10) else 0x61 + (n - 10))

/-- Octets written with some of them escaped.  No `%` is written as it is. -/
inductive Escapes : List UInt8 → List UInt8 → Prop
  | nil : Escapes [] []
  | plain {b : UInt8} {octets written : List UInt8} (hb : b ≠ percent)
      (rest : Escapes octets written) : Escapes (b :: octets) (b :: written)
  | escape {b : UInt8} {octets written : List UInt8} (capital capital' : Bool)
      (rest : Escapes octets written) :
      Escapes (b :: octets)
        (percent :: digit capital (b.toNat / 16) :: digit capital' (b.toNat % 16) :: written)

/-- A digit has the value that it writes. -/
lemma hexValue_digit (capital : Bool) {n : Nat} (h : n < 16) :
    hexValue (digit capital n) = some n := by
  have htable : ∀ capital, ∀ n : Fin 16, hexValue (digit capital n) = some n.val := by
    decide
  exact htable capital ⟨n, h⟩

/-- The escape of an octet stands for it. -/
lemma escaped_digit (b : UInt8) (capital capital' : Bool) :
    escaped (digit capital (b.toNat / 16)) (digit capital' (b.toNat % 16)) = some b := by
  have hb := b.toNat_lt
  have hvalue : 16 * (b.toNat / 16) + b.toNat % 16 = b.toNat := Nat.div_add_mod _ _
  rw [escaped, hexValue_digit _ (by omega), hexValue_digit _ (by omega)]
  simp only [hvalue, UInt8.ofNat_toNat]

/-- Octets are read from any writing of them. -/
theorem decode_of_escapes {octets written : List UInt8} (h : Escapes octets written) :
    decode written = octets := by
  induction h with
  | nil => rfl
  | plain hb rest ih => rw [decode_cons_of_ne hb, ih]
  | escape capital capital' rest ih => rw [decode_escape (escaped_digit _ _ _), ih]

end PlotAnnotation.Text.Percent
