/-!
# Powers and sums of integers

Other libraries have instances of their own for the powers and the zero of integers.  Here those of
the core library come first, whatever else is imported: for powers with a numeral as exponent
always, for other powers and for sums where the scope `Arithmetic` is open.  A definition is thereby
the same term in every file.
-/

namespace PlotAnnotation.Arithmetic

attribute [default_instance 20000] instPowNat

attribute [scoped instance (high)] instPowNat Zero.ofOfNat0

end PlotAnnotation.Arithmetic
