import PlotAnnotation.Hover.Config
import PlotAnnotation.Point

/-!
# Options of a graph

The options that a page hands to one graph: its data, the options of the chart engine, which are
kept as they are, the granularity of its labels and their language.  The granularity may also stand
among the engine options; the one outside of them wins.

Options are exchanged as JSON, either bare or within a contract that names its version.  Any object
with a version is taken for a contract.
-/

namespace PlotAnnotation

open Json

/-- The name of the granularity in options and engine options. -/
def granularityKey : String := "_date_interval"

/-- The options of one graph. -/
structure GraphOptions where
  data : List DataPoint := []
  /-- The options of the chart engine. -/
  config : Object := .empty
  /-- The name of a granularity, which need not be one. -/
  granularity : Option String := none
  language : Option String := none
deriving DecidableEq

namespace GraphOptions

/-- A field that is written only where it is set. -/
def entry? (key : String) : Option String → List (String × Value)
  | some s => [(key, .string s)]
  | none => []

instance : Wire GraphOptions where
  toValue o := .object (
    [("data", .array (o.data.map Wire.toValue)), ("config", o.config.toValue)] ++
      entry? granularityKey o.granularity ++ entry? "language" o.language)
  ofTree? t := do
    let field ← fields? ["data", "config", granularityKey, "language"] t
    return { data := ← (field "data").orDefault (Tree.toList? Wire.ofTree?) []
             config := ← (field "config").orDefault Object.ofTree? .empty
             granularity := ← (field granularityKey).orDefault (Slot.nullable Tree.toText?) none
             language := ← (field "language").orDefault (Slot.nullable Tree.toText?) none }

/-- The name of the granularity, wherever it stands. -/
def granularityName (o : GraphOptions) : Option String :=
  o.granularity.or ((o.config.find? granularityKey).bind Value.text?)

/-- The granularity of the labels; a name that is none shows the whole date. -/
def labelGranularity (o : GraphOptions) : Option Granularity :=
  o.granularityName.bind Granularity.ofName?

/-- How the graph answers hovering. -/
def hoverConfig (o : GraphOptions) : HoverConfig :=
  { granularity := o.labelGranularity, language := o.language }

end GraphOptions

/-! ### Contracts -/

/-- Options under a version. -/
structure Contract where
  version : UInt32
  options : GraphOptions
deriving DecidableEq

namespace Contract

/-- The name of the version in a contract. -/
def versionKey : String := "schema_version"

/-- The version that is written and understood. -/
def currentVersion : UInt32 := 1

instance : Wire Contract where
  toValue c := .object [(versionKey, .ofUInt32 c.version), ("options", Wire.toValue c.options)]
  ofTree? t := do
    let field ← fields? [versionKey, "options"] t
    return { version := ← (field versionKey).required Tree.toUInt32?
             options := ← (field "options").required Wire.ofTree? }

/-- The options of a contract of the current version. -/
def accept (c : Contract) : Except Fault GraphOptions :=
  if c.version = currentVersion then .ok c.options else .error (.contractVersion c.version)

end Contract

namespace GraphOptions

/-- The options of a value: a contract if it has a version, else bare options. -/
def ofValue (v : Value) : Except Fault GraphOptions :=
  match v.member? Contract.versionKey with
  | none =>
    match Json.ofValue? v with
    | some options => .ok options
    | none => .error .options
  | some _ =>
    match (Json.ofValue? v : Option Contract) with
    | some contract => contract.accept
    | none => .error .contract

/-- The options of a text. -/
def ofText (s : String) : Except Fault GraphOptions :=
  match Value.ofString? s with
  | some v => ofValue v
  | none => .error .optionsText

/-- The options as a contract of the current version, over several lines.  There is no error to
report: every key of an object is a text, a float that is not finite is written as `null`, and the
text is kept in memory, so nothing that the writer meets can stop it. -/
def contractText (o : GraphOptions) : String :=
  (Wire.toValue (Contract.mk Contract.currentVersion o)).indented

end GraphOptions

end PlotAnnotation
