/-!
# Diagnostics

What happens inside can be traced by the host.  The library brings no collector of its own, so
starting the default one starts nothing.
-/

namespace PlotAnnotation.Diagnostics

/-- Whether starting the default collector started one. -/
def startDefault : Bool := false

end PlotAnnotation.Diagnostics
