import OrderOfGrowth.Narration

/-!
The analysis of a source. A source that is all margin is not analysed; any other has signals, and
its narration is the one of its signals.
-/

set_option autoImplicit false

namespace OrderOfGrowth

inductive Analysis where
  | blank
  | narrated (signals : Signals)
  deriving DecidableEq, Repr

namespace Analysis

def ofSource (source : Text) : Analysis :=
  if Text.trimMargin source = [] then .blank else .narrated (Signals.ofSource source)

def blankMessage : Text :=
  "Please provide source text.".toList

def signals? : Analysis → Option Signals
  | .blank => none
  | .narrated signals => some signals

def lines? : Analysis → Option (List Line)
  | .blank => none
  | .narrated signals => some (Narration.ofSignals signals)

def toText : Analysis → Text
  | .blank => blankMessage
  | .narrated signals => Narration.toText (Narration.ofSignals signals)

end Analysis

end OrderOfGrowth
