/-!
# UTF-8, read without failing

`encode` writes the octets of a text.  `decode` reads any octets: a character that is cut short or
spoiled is replaced by U+FFFD, one for each longest run of octets that could have begun a
character, and reading goes on with the octet that spoiled it.

The reader is a machine that takes one octet at a time.  Between characters it holds nothing;
inside a character it knows how many octets are owed, in which range the next one must lie, and
the bits gathered so far.  The narrow ranges after the first octet keep out overlong forms,
surrogates and values past U+10FFFF.
-/

namespace PlotAnnotation.Text.Utf8

/-- What stands for octets that are no character. -/
def replacement : Char := '\ufffd'

/-- The octets of a text. -/
def encode (cs : List Char) : List UInt8 :=
  cs.flatMap String.utf8EncodeChar

/-- A character under way: `owed + 1` octets are missing, the next one within `low` to `high`. -/
structure Pending where
  bits : Nat
  owed : Nat
  low : Nat
  high : Nat
deriving DecidableEq, Repr

/-- The machine is between characters, or inside one. -/
abbrev State := Option Pending

/-- The octet `b` where a character may start: what is written, and the state after it. -/
def start (b : Nat) : List Char × State :=
  if b < 0x80 then ([Char.ofNat b], none)
  else if 0xC2 ≤ b ∧ b ≤ 0xDF then ([], some ⟨b % 32, 0, 0x80, 0xBF⟩)
  else if b = 0xE0 then ([], some ⟨0, 1, 0xA0, 0xBF⟩)
  else if b = 0xED then ([], some ⟨b % 16, 1, 0x80, 0x9F⟩)
  else if 0xE1 ≤ b ∧ b ≤ 0xEF then ([], some ⟨b % 16, 1, 0x80, 0xBF⟩)
  else if b = 0xF0 then ([], some ⟨0, 2, 0x90, 0xBF⟩)
  else if 0xF1 ≤ b ∧ b ≤ 0xF3 then ([], some ⟨b % 8, 2, 0x80, 0xBF⟩)
  else if b = 0xF4 then ([], some ⟨b % 8, 2, 0x80, 0x8F⟩)
  else ([replacement], none)

/-- One octet from any state. An octet that spoils a character is read again as a first octet. -/
def step : State → Nat → List Char × State
  | none, b => start b
  | some p, b =>
    if p.low ≤ b ∧ b ≤ p.high then
      match p.owed with
      | 0 => ([Char.ofNat (p.bits * 64 + b % 64)], none)
      | owed + 1 => ([], some ⟨p.bits * 64 + b % 64, owed, 0x80, 0xBF⟩)
    else (replacement :: (start b).1, (start b).2)

/-- What is written when the octets end in a state. -/
def State.finish : State → List Char
  | none => []
  | some _ => [replacement]

/-- Reads octets from a state on. -/
def decodeFrom : State → List UInt8 → List Char
  | s, [] => s.finish
  | s, b :: bs => (step s b.toNat).1 ++ decodeFrom (step s b.toNat).2 bs

/-- The text of any octets. -/
def decode (bs : List UInt8) : List Char :=
  decodeFrom none bs

@[simp] theorem decode_nil : decode [] = [] := rfl

/-- An ASCII octet ends whatever was under way and is itself. -/
theorem step_ascii (s : State) (b : Nat) (h : b < 0x80)
    (hs : ∀ p, s = some p → 0x80 ≤ p.low) :
    step s b = (s.finish ++ [Char.ofNat b], none) := by
  cases s with
  | none => simp [step, start, State.finish, h]
  | some p =>
    have := hs p rfl
    have hn : ¬(p.low ≤ b ∧ b ≤ p.high) := by omega
    simp [step, start, State.finish, h, hn]

end PlotAnnotation.Text.Utf8
