import PlotAnnotation.Keyed
import PlotAnnotation.Locale.MonthNames
import PlotAnnotation.Text.Case

/-!
# Tables of languages

A table has month names under language codes and always knows English, to which an unknown language
falls back.  A code is looked up as it is, and then by its first part in lower case, so that
`FR_ca` finds `fr`.
-/

namespace PlotAnnotation

/-- The code of the language that every table has. -/
def fallbackLanguage : String := "en"

/-- Month names under distinct language codes, English among them. -/
structure LocaleTable where
  entries : List (String × MonthNames)
  distinct : (Keyed.keys entries).Nodup
  hasFallback : fallbackLanguage ∈ Keyed.keys entries

namespace LocaleTable

/-- The table of the given entries.  A code that comes again keeps its place and takes the new
names. -/
def ofEntries (given : List (String × MonthNames)) : Except Fault LocaleTable :=
  let entries := Keyed.putAll [] given
  if h : fallbackLanguage ∈ Keyed.keys entries then
    .ok ⟨entries, Keyed.nodup_putAll List.nodup_nil, h⟩
  else .error .noFallback

/-- The built-in languages. -/
def builtin : LocaleTable where
  entries := [("en", MonthNames.english), ("es", MonthNames.spanish), ("fr", MonthNames.french),
    ("de", MonthNames.german)]
  distinct := by decide
  hasFallback := by decide

/-- The codes of a table, in order. -/
def languages (table : LocaleTable) : List String :=
  Keyed.keys table.entries

/-- Whether a table has exactly this code. -/
def contains (table : LocaleTable) (language : String) : Bool :=
  (Keyed.find? language table.entries).isSome

/-- The names in the language that every table has. -/
def fallback (table : LocaleTable) : MonthNames :=
  (Keyed.find? fallbackLanguage table.entries).get ((Keyed.isSome_find? _ _).2 table.hasFallback)

/-- The part of a code before the first `-` or `_`, in lower case. -/
def primary (language : String) : String :=
  String.ofList (Text.lower (language.toList.takeWhile fun c => c != '-' && c != '_'))

/-- The names for a language; for none, an empty or an unknown one, those of the fallback. -/
def lookup (table : LocaleTable) (language : Option String) : MonthNames :=
  match language with
  | none => table.fallback
  | some code =>
    if code = "" then table.fallback
    else
      match Keyed.find? code table.entries with
      | some names => names
      | none => (Keyed.find? (primary code) table.entries).getD table.fallback

end LocaleTable

end PlotAnnotation
