import PlotAnnotation.Decimal.Integer
import PlotAnnotation.Decimal.Text
import PlotAnnotation.Json.Value

/-!
# Writing JSON

A `Layout` says what stands before an item and after a key; all layouts write the same tokens.  The
compact one adds nothing, the indented one gives each item a line of its own with two blanks for
each bracket around it.  Empty brackets are never opened over several lines.

In a text only the quote, the backslash and the control characters below U+0020 are escaped.  A
double always has a point or an exponent, so that it is told from an integer.
-/

namespace PlotAnnotation

/-- Doubles in JSON: written out in full from a hundred-thousandth to below `10 ^ 16`. -/
def NumberFormat.json : NumberFormat where
  plain := some (-5, 15)
  pointed := true
  tie := .even

namespace Json

/-- What stands between tokens. -/
structure Layout where
  /-- What stands before an item with so many brackets around it, and before a closing bracket. -/
  line : Nat → List Char
  /-- What stands between a key and its value. -/
  colon : List Char

namespace Layout

/-- Everything on one line, without blanks. -/
def compact : Layout where
  line _ := []
  colon := [':']

/-- Every item on a line of its own. -/
def indented : Layout where
  line depth := '\n' :: List.replicate (2 * depth) ' '
  colon := [':', ' ']

end Layout

/-- What a character of a text is written as. -/
def escapeChar (c : Char) : List Char :=
  if c = '"' then ['\\', '"']
  else if c = '\\' then ['\\', '\\']
  else if c = '\x08' then ['\\', 'b']
  else if c = '\t' then ['\\', 't']
  else if c = '\n' then ['\\', 'n']
  else if c = '\x0c' then ['\\', 'f']
  else if c = '\r' then ['\\', 'r']
  else if c.toNat < 0x20 then
    ['\\', 'u', '0', '0', Nat.digitChar (c.toNat / 16), Nat.digitChar (c.toNat % 16)]
  else [c]

/-- A text between quotes. -/
def writeText (s : String) : List Char :=
  '"' :: (s.toList.flatMap escapeChar ++ ['"'])

/-- A number. -/
def Number.write : Number → List Char
  | int n _ _ => (integerText n).toList
  | float x _ => NumberFormat.json.write x

namespace Value

mutual

/-- A value with so many brackets around it. -/
def write (l : Layout) (depth : Nat) : Value → List Char
  | null => "null".toList
  | bool true => "true".toList
  | bool false => "false".toList
  | number n => n.write
  | string s => writeText s
  | array [] => ['[', ']']
  | array (v :: vs) =>
    '[' :: (l.line (depth + 1) ++ write l (depth + 1) v ++ writeItems l (depth + 1) vs ++
      l.line depth ++ [']'])
  | object [] => ['{', '}']
  | object ((key, v) :: es) =>
    '{' :: (l.line (depth + 1) ++ writeText key ++ l.colon ++ write l (depth + 1) v ++
      writeEntries l (depth + 1) es ++ l.line depth ++ ['}'])

/-- The items after the first. -/
def writeItems (l : Layout) (depth : Nat) : List Value → List Char
  | [] => []
  | v :: vs => ',' :: (l.line depth ++ write l depth v ++ writeItems l depth vs)

/-- The entries after the first. -/
def writeEntries (l : Layout) (depth : Nat) : List (String × Value) → List Char
  | [] => []
  | (key, v) :: es =>
    ',' :: (l.line depth ++ writeText key ++ l.colon ++ write l depth v ++ writeEntries l depth es)

end

/-- A value on one line. -/
def compact (v : Value) : String :=
  String.ofList (v.write .compact 0)

/-- A value over several lines. -/
def indented (v : Value) : String :=
  String.ofList (v.write .indented 0)

end Value

end Json

end PlotAnnotation
