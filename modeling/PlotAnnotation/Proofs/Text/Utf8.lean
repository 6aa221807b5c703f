import Mathlib.Tactic.Lemma
import PlotAnnotation.Text.Utf8

/-!
# Octets of a text and their reading

The octets of a text are read as that text (`decode_encode`): the first octet of a character takes
the machine inside, each of the others is one that is owed, and the last one takes it out again with
the character written.

An ASCII octet is never owed.  It therefore cuts octets in two that are read by themselves, even
where it cuts a character short (`decode_append_ascii`).
-/

namespace PlotAnnotation.Text.Utf8

/-! ### Cuts at ASCII octets -/

/-- Inside a character no ASCII octet is expected. -/
def State.IsGuarded (s : State) : Prop :=
  ∀ p, s = some p → 0x80 ≤ p.low

/-- Whatever octet a character begins with, no ASCII octet is expected inside of it. -/
lemma isGuarded_start (b : Nat) : (start b).2.IsGuarded := by
  intro p hp
  unfold start at hp
  grind

/-- Whatever is read, the next octet expected inside a character is no ASCII octet. -/
lemma isGuarded_step (s : State) (b : Nat) : (step s b).2.IsGuarded := by
  cases s with
  | none => exact isGuarded_start b
  | some p =>
    obtain ⟨bits, owed, low, high⟩ := p
    by_cases hin : low ≤ b ∧ b ≤ high
    · cases owed with
      | zero =>
        intro q hq
        simp [step, hin] at hq
      | succ owed =>
        intro q hq
        simp only [step, if_pos hin, Option.some.injEq] at hq
        subst hq
        exact Nat.le_refl _
    · simp only [step, if_neg hin]
      exact isGuarded_start b

/-- What comes before an ASCII octet is read as if it ended there, and what comes after it as if it
started there. -/
lemma decodeFrom_append_ascii {s : State} (hs : s.IsGuarded) (before : List UInt8) {b : UInt8}
    (hb : b.toNat < 0x80) (after : List UInt8) :
    decodeFrom s (before ++ b :: after) =
      decodeFrom s before ++ Char.ofNat b.toNat :: decode after := by
  induction before generalizing s with
  | nil =>
    rw [List.nil_append, decodeFrom.eq_2, step_ascii s b.toNat hb hs, decodeFrom,
      List.append_assoc]
    rfl
  | cons a before ih =>
    rw [List.cons_append, decodeFrom, ih (isGuarded_step s a.toNat), decodeFrom,
      List.append_assoc]

/-- An ASCII octet cuts octets in two. -/
theorem decode_append_ascii (before : List UInt8) {b : UInt8} (hb : b.toNat < 0x80)
    (after : List UInt8) :
    decode (before ++ b :: after) = decode before ++ Char.ofNat b.toNat :: decode after := by
  have hnone : State.IsGuarded none := by
    intro p hp
    contradiction
  exact decodeFrom_append_ascii hnone before hb after

/-- The first octet of `é` is spoiled by a separator, which is read. -/
example : decode [0xC3, 0x7C, 0xA9] = [replacement, '|', replacement] := by
  decide

/-! ### The octets of a character -/

/-- Of several octets that are owed one is read. -/
lemma step_more {bits owed low high b : Nat} (hlow : low ≤ b) (hhigh : b ≤ high) :
    step (some ⟨bits, owed + 1, low, high⟩) b =
      ([], some ⟨bits * 64 + b % 64, owed, 0x80, 0xBF⟩) :=
  if_pos ⟨hlow, hhigh⟩

/-- The one octet that is owed ends the character. -/
lemma step_last {bits low high b : Nat} (hlow : low ≤ b) (hhigh : b ≤ high) :
    step (some ⟨bits, 0, low, high⟩) b = ([Char.ofNat (bits * 64 + b % 64)], none) :=
  if_pos ⟨hlow, hhigh⟩

/-- The first of two octets. -/
lemma start_two {b : Nat} (hlow : 0xC2 ≤ b) (hhigh : b ≤ 0xDF) :
    start b = ([], some ⟨b % 32, 0, 0x80, 0xBF⟩) := by
  unfold start
  rw [if_neg (by omega), if_pos ⟨hlow, hhigh⟩]

/-- The first of three octets admits every second octet but those of shorter forms and of
surrogates. -/
lemma start_three (b second : Nat) (hlow : 0xE0 ≤ b) (hhigh : b ≤ 0xEF) (hsecond : 0x80 ≤ second)
    (hsecond' : second ≤ 0xBF) (hlong : b = 0xE0 → 0xA0 ≤ second)
    (hscalar : b = 0xED → second ≤ 0x9F) :
    ∃ low high, start b = ([], some ⟨b % 16, 1, low, high⟩) ∧ low ≤ second ∧ second ≤ high := by
  unfold start
  rw [if_neg (by omega), if_neg (by omega)]
  by_cases hleast : b = 0xE0
  · refine ⟨0xA0, 0xBF, ?_, hlong hleast, hsecond'⟩
    rw [if_pos hleast, hleast]
  by_cases hsurrogate : b = 0xED
  · refine ⟨0x80, 0x9F, ?_, hsecond, hscalar hsurrogate⟩
    rw [if_neg hleast, if_pos hsurrogate]
  · refine ⟨0x80, 0xBF, ?_, hsecond, hsecond'⟩
    rw [if_neg hleast, if_neg hsurrogate, if_pos (by omega)]

/-- The first of four octets admits every second octet but those of shorter forms and of values
that are too great. -/
lemma start_four (b second : Nat) (hlow : 0xF0 ≤ b) (hhigh : b ≤ 0xF4) (hsecond : 0x80 ≤ second)
    (hsecond' : second ≤ 0xBF) (hlong : b = 0xF0 → 0x90 ≤ second)
    (hscalar : b = 0xF4 → second ≤ 0x8F) :
    ∃ low high, start b = ([], some ⟨b % 8, 2, low, high⟩) ∧ low ≤ second ∧ second ≤ high := by
  unfold start
  rw [if_neg (by omega), if_neg (by omega), if_neg (by omega), if_neg (by omega),
    if_neg (by omega)]
  by_cases hleast : b = 0xF0
  · refine ⟨0x90, 0xBF, ?_, hlong hleast, hsecond'⟩
    rw [if_pos hleast, hleast]
  by_cases hgreatest : b = 0xF4
  · refine ⟨0x80, 0x8F, ?_, hsecond, hscalar hgreatest⟩
    rw [if_neg hleast, if_neg (by omega), if_pos hgreatest]
  · refine ⟨0x80, 0xBF, ?_, hsecond, hsecond'⟩
    rw [if_neg hleast, if_pos (by omega)]

/-- An octet given as a number is read as that number. -/
lemma decodeFrom_ofNat (s : State) {n : Nat} (hn : n < 256) (rest : List UInt8) :
    decodeFrom s (UInt8.ofNat n :: rest) = (step s n).1 ++ decodeFrom (step s n).2 rest := by
  have hoctet : (UInt8.ofNat n).toNat = n := by
    rw [UInt8.toNat_ofNat']
    exact Nat.mod_eq_of_lt hn
  rw [decodeFrom, hoctet]

/-- The octets of a character, from the first place in base 64 down. -/
lemma encodeChar_eq (c : Char) : String.utf8EncodeChar c =
    if c.toNat ≤ 0x7F then [UInt8.ofNat c.toNat]
    else if c.toNat ≤ 0x7FF then
      [UInt8.ofNat (c.toNat / 64 % 32 + 0xC0), UInt8.ofNat (c.toNat % 64 + 0x80)]
    else if c.toNat ≤ 0xFFFF then
      [UInt8.ofNat (c.toNat / 4096 % 16 + 0xE0), UInt8.ofNat (c.toNat / 64 % 64 + 0x80),
        UInt8.ofNat (c.toNat % 64 + 0x80)]
    else
      [UInt8.ofNat (c.toNat / 262144 % 8 + 0xF0), UInt8.ofNat (c.toNat / 4096 % 64 + 0x80),
        UInt8.ofNat (c.toNat / 64 % 64 + 0x80), UInt8.ofNat (c.toNat % 64 + 0x80)] :=
  rfl

/-- The octets of a character are read as that character, whatever comes after. -/
lemma decode_encodeChar (c : Char) (rest : List UInt8) :
    decode (String.utf8EncodeChar c ++ rest) = c :: decode rest := by
  have hscalar : c.toNat < 0xD800 ∨ 0xDFFF < c.toNat ∧ c.toNat < 0x110000 := c.valid
  have hchar : ∀ n, n = c.toNat → Char.ofNat n = c := by
    rintro n rfl
    exact Char.ofNat_toNat c
  rw [encodeChar_eq]
  unfold decode
  by_cases hone : c.toNat ≤ 0x7F
  · rw [if_pos hone, List.singleton_append, decodeFrom_ofNat _ (by omega), step, start,
      if_pos (by omega), hchar _ rfl]
    rfl
  by_cases htwo : c.toNat ≤ 0x7FF
  · rw [if_neg hone, if_pos htwo, List.cons_append, List.singleton_append,
      decodeFrom_ofNat _ (by omega), step, start_two (by omega) (by omega),
      decodeFrom_ofNat _ (by omega), step_last (by omega) (by omega), hchar _ (by omega)]
    rfl
  by_cases hthree : c.toNat ≤ 0xFFFF
  · obtain ⟨low, high, hstart, hlow, hhigh⟩ := start_three (c.toNat / 4096 % 16 + 0xE0)
      (c.toNat / 64 % 64 + 0x80) (by omega) (by omega) (by omega) (by omega) (by omega) (by omega)
    rw [if_neg hone, if_neg htwo, if_pos hthree, List.cons_append, List.cons_append,
      List.singleton_append, decodeFrom_ofNat _ (by omega), step, hstart,
      decodeFrom_ofNat _ (by omega), step_more hlow hhigh, decodeFrom_ofNat _ (by omega),
      step_last (by omega) (by omega), hchar _ (by omega)]
    rfl
  · obtain ⟨low, high, hstart, hlow, hhigh⟩ := start_four (c.toNat / 262144 % 8 + 0xF0)
      (c.toNat / 4096 % 64 + 0x80) (by omega) (by omega) (by omega) (by omega) (by omega)
      (by omega)
    rw [if_neg hone, if_neg htwo, if_neg hthree, List.cons_append, List.cons_append,
      List.cons_append, List.singleton_append, decodeFrom_ofNat _ (by omega), step, hstart,
      decodeFrom_ofNat _ (by omega), step_more hlow hhigh, decodeFrom_ofNat _ (by omega),
      step_more (by omega) (by omega), decodeFrom_ofNat _ (by omega),
      step_last (by omega) (by omega), hchar _ (by omega)]
    rfl

/-- The octets of a text are read as that text. -/
theorem decode_encode (cs : List Char) : decode (encode cs) = cs := by
  induction cs with
  | nil => rfl
  | cons c cs ih =>
    have hsplit : encode (c :: cs) = String.utf8EncodeChar c ++ encode cs := List.flatMap_cons
    rw [hsplit, decode_encodeChar, ih]

/-- The octets of texts put together are those of each. -/
lemma encode_append (cs ds : List Char) : encode (cs ++ ds) = encode cs ++ encode ds :=
  List.flatMap_append

end PlotAnnotation.Text.Utf8
