/-!
# Text inside markup

The five characters that mean something to markup are written as entities, so that a text can
stand between tags and inside quoted attributes.
-/

namespace PlotAnnotation.Text.Markup

/-- What a character is written as. -/
def escapeChar : Char → List Char
  | '&' => "&amp;".toList
  | '<' => "&lt;".toList
  | '>' => "&gt;".toList
  | '"' => "&quot;".toList
  | '\x27' => "&#39;".toList
  | c => [c]

/-- A text with the characters of markup written as entities. -/
def escape (s : String) : String :=
  String.ofList (s.toList.flatMap escapeChar)

@[simp] theorem toList_escape (s : String) :
    (escape s).toList = s.toList.flatMap escapeChar := by
  simp [escape]

end PlotAnnotation.Text.Markup
