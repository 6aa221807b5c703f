import PlotAnnotation.Canvas.Recorder
import PlotAnnotation.Diagnostics
import PlotAnnotation.Filters
import PlotAnnotation.Graphs
import PlotAnnotation.Proofs.Label.Shown
import PlotAnnotation.View
import PlotAnnotation.Proofs.Decimal.Digits
import PlotAnnotation.Proofs.Hover.History
import PlotAnnotation.Proofs.Json.Numeral
import PlotAnnotation.Proofs.Json.Nesting
import PlotAnnotation.Proofs.Json.Record
import PlotAnnotation.Proofs.Options.RoundTrip
import PlotAnnotation.Proofs.Filters.Request
import PlotAnnotation.Proofs.Graphs.Shown
import PlotAnnotation.Proofs.Label.Agreement
import PlotAnnotation.Proofs.Options.Finite
import PlotAnnotation.Proofs.Settings.Form
import PlotAnnotation.Proofs.Graphs.Assembly
import PlotAnnotation.Proofs.View.Start
import PlotAnnotation.Proofs.Calendar.Fields
import PlotAnnotation.Proofs.Calendar.Keys
import PlotAnnotation.Proofs.Calendar.Written
import PlotAnnotation.Proofs.Fault.Requirements
import PlotAnnotation.Proofs.Decimal.Order
import PlotAnnotation.Proofs.Canvas.Drawable
import PlotAnnotation.Proofs.Canvas.Memory
import PlotAnnotation.Proofs.Calendar.Forms
import PlotAnnotation.Proofs.Graphs.Totals
import PlotAnnotation.Proofs.Settings.Verdict
import PlotAnnotation.Proofs.Keyed.Given
import PlotAnnotation.Proofs.Locale.Lookup
import PlotAnnotation.Proofs.Settings.Wire
import PlotAnnotation.Proofs.Options.Version
import PlotAnnotation.Proofs.Decimal.Nearest
import PlotAnnotation.Proofs.Json.Spelling
import PlotAnnotation.Proofs.Point.Decoding
import PlotAnnotation.Proofs.Decimal.Shortest
import PlotAnnotation.Proofs.Decimal.Layout
import PlotAnnotation.Proofs.Text.Markup
import PlotAnnotation.Proofs.Canvas.BarNumbers
import PlotAnnotation.Proofs.Tooltip.Content
import PlotAnnotation.Proofs.Json.Path
import PlotAnnotation.Proofs.View.BarNumbers
import PlotAnnotation.Proofs.Calendar.Wire
