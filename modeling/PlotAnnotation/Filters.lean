import PlotAnnotation.Keyed
import PlotAnnotation.Text.Percent
import PlotAnnotation.Text.Utf8

/-!
# Filters of a request

A request names filters as `field:value`, joined by `|`; the whole is percent-encoded.  It is
decoded first and then cut, so an escaped separator separates too.  The first `:` of a segment ends
the field; a segment without one says nothing.  The values of a field are gathered in order, the
fields in the order they first come.
-/

namespace PlotAnnotation

/-- Fields with the values they are filtered by, in the order they first came. -/
abbrev Filters := List (String × List String)

namespace Filters

/-- A text cut at every `|`. -/
def segments : List Char → List (List Char)
  | [] => [[]]
  | c :: cs =>
    if c = '|' then [] :: segments cs
    else
      match segments cs with
      | [] => [[c]]
      | s :: ss => (c :: s) :: ss

/-- Field and value of a segment, cut at the first `:`. -/
def pair? (segment : List Char) : Option (String × String) :=
  match segment.dropWhile (· != ':') with
  | [] => none
  | _ :: value => some (String.ofList (segment.takeWhile (· != ':')), String.ofList value)

/-- The filters with a value more. -/
def add (filters : Filters) (pair : String × String) : Filters :=
  Keyed.update pair.1 (fun values => values.getD [] ++ [pair.2]) filters

/-- The pairs of fields and values, gathered by field. -/
def gather (pairs : List (String × String)) : Filters :=
  pairs.foldl add []

/-- The text of a request without its escapes. -/
def decoded (raw : String) : List Char :=
  Text.Utf8.decode (Text.Percent.decode (Text.Utf8.encode raw.toList))

/-- The filters of a request. -/
def ofRequest (raw : String) : Filters :=
  gather ((segments (decoded raw)).filterMap pair?)

end Filters

end PlotAnnotation
