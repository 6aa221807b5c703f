import PlotAnnotation.Json.Numeral

/-!
# Tokens of JSON

A text is cut into tokens by a machine that takes one character at a time.  Between tokens it waits;
a name or a numeral is a run of characters that ends where a blank, a bracket, a mark or a quote
comes; a text runs to its closing quote.

Inside a text, characters and escapes are gathered as units of sixteen bits, since an escape may
stand for half of a character; a character that was not escaped is one unit, whatever its size.  The
halves are joined when the text ends.  A text with a half that stands alone, and a numeral too large
for a double, are tokens all the same, but have no value.
-/

namespace PlotAnnotation.Json

/-- A token. A text or a number may be without value. -/
inductive Token where
  | openArray
  | closeArray
  | openObject
  | closeObject
  | comma
  | colon
  | null
  | bool (b : Bool)
  | number (n : Option Number)
  | text (s : Option String)
deriving DecidableEq, Repr

namespace Token

/-- The token that is a single character. -/
def ofMark? : Char → Option Token
  | '[' => some openArray
  | ']' => some closeArray
  | '{' => some openObject
  | '}' => some closeObject
  | ',' => some comma
  | ':' => some colon
  | _ => none

/-- The blanks between tokens. -/
def isGap (c : Char) : Bool :=
  c == ' ' || c == '\n' || c == '\t' || c == '\r'

/-- The token of a run of characters: a name or a numeral. -/
def ofWord? (word : List Char) : Option Token :=
  if word = ['n', 'u', 'l', 'l'] then some null
  else if word = ['t', 'r', 'u', 'e'] then some (bool true)
  else if word = ['f', 'a', 'l', 's', 'e'] then some (bool false)
  else (Numeral.ofChars? word).map fun n => number n.value?

/-! ### Units -/

/-- The first half of a character of two units. -/
def isHigh (u : Nat) : Bool :=
  0xD800 ≤ u && u < 0xDC00

/-- The second half of a character of two units. -/
def isLow (u : Nat) : Bool :=
  0xDC00 ≤ u && u < 0xE000

/-- The characters of a list of units; none if a half stands alone. -/
def joinUnits : List Nat → Option (List Char)
  | [] => some []
  | u :: rest =>
    if isHigh u then
      match rest with
      | [] => none
      | v :: rest =>
        if isLow v then
          (joinUnits rest).map (Char.ofNat (0x10000 + (u - 0xD800) * 0x400 + (v - 0xDC00)) :: ·)
        else none
    else if isLow u then none
    else (joinUnits rest).map (Char.ofNat u :: ·)

/-- The unit that a one-letter escape stands for. -/
def unescape? : Char → Option Nat
  | '"' => some 0x22
  | '\\' => some 0x5C
  | '/' => some 0x2F
  | 'b' => some 0x08
  | 'f' => some 0x0C
  | 'n' => some 0x0A
  | 'r' => some 0x0D
  | 't' => some 0x09
  | _ => none

/-- The value of a hexadecimal digit. -/
def hexValue? (c : Char) : Option Nat :=
  let n := c.toNat
  if 0x30 ≤ n ∧ n ≤ 0x39 then some (n - 0x30)
  else if 0x41 ≤ n ∧ n ≤ 0x46 then some (n - 0x41 + 10)
  else if 0x61 ≤ n ∧ n ≤ 0x66 then some (n - 0x61 + 10)
  else none

/-! ### The machine -/

/-- What is under way. Units and characters gathered so far are held last first. -/
inductive Mode where
  /-- Nothing is under way. -/
  | between
  /-- A run of characters. -/
  | word (before : List Char)
  /-- A text. -/
  | text (before : List Nat)
  /-- An escape in a text. -/
  | escape (before : List Nat)
  /-- An escape by number, with digits missing. -/
  | unit (before : List Nat) (missing : Nat) (value : Nat)
deriving DecidableEq, Repr

/-- What is under way, and the tokens so far, last first. -/
structure Cutter where
  mode : Mode
  tokens : List Token
deriving DecidableEq, Repr

namespace Cutter

/-- A character where nothing is under way. -/
def start (tokens : List Token) (c : Char) : Cutter :=
  if isGap c then ⟨.between, tokens⟩
  else if c = '"' then ⟨.text [], tokens⟩
  else match ofMark? c with
    | some t => ⟨.between, t :: tokens⟩
    | none => ⟨.word [c], tokens⟩

/-- Whether a character ends a run. -/
def endsWord (c : Char) : Bool :=
  isGap c || c == '"' || (ofMark? c).isSome

/-- One character. -/
def step (s : Cutter) (c : Char) : Option Cutter :=
  match s.mode with
  | .between => some (start s.tokens c)
  | .word before =>
    if endsWord c then (ofWord? before.reverse).map fun t => start (t :: s.tokens) c
    else some ⟨.word (c :: before), s.tokens⟩
  | .text before =>
    if c = '"' then
      some ⟨.between, Token.text ((joinUnits before.reverse).map String.ofList) :: s.tokens⟩
    else if c = '\\' then some ⟨.escape before, s.tokens⟩
    else if c.toNat < 0x20 then none
    else some ⟨.text (c.toNat :: before), s.tokens⟩
  | .escape before =>
    if c = 'u' then some ⟨.unit before 4 0, s.tokens⟩
    else (unescape? c).map fun u => ⟨.text (u :: before), s.tokens⟩
  | .unit before missing value =>
    (hexValue? c).map fun d =>
      if missing = 1 then ⟨.text ((value * 16 + d) :: before), s.tokens⟩
      else ⟨.unit before (missing - 1) (value * 16 + d), s.tokens⟩

/-- The tokens when the text ends. -/
def finish (s : Cutter) : Option (List Token) :=
  match s.mode with
  | .between => some s.tokens.reverse
  | .word before => (ofWord? before.reverse).map fun t => (t :: s.tokens).reverse
  | _ => none

end Cutter

/-- The tokens of a text. -/
def ofChars? (cs : List Char) : Option (List Token) :=
  (cs.foldlM Cutter.step ⟨.between, []⟩).bind Cutter.finish

end Token

end PlotAnnotation.Json
