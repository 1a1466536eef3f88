import OrderOfGrowth.Scan.Loops
import OrderOfGrowth.Scan.Recursion
import OrderOfGrowth.Scan.Search

/-!
The signals of a source: four independent readings of its raw text.
-/

set_option autoImplicit false

namespace OrderOfGrowth

structure Signals where
  loopCount : Nat
  loopDepth : Nat
  recursion : Option Scan.Recursion
  isBinarySearch : Bool
  isLinearSearch : Bool
  deriving DecidableEq, Repr

namespace Signals

def ofSource (source : Text) : Signals :=
  let loops := Scan.LoopScan.ofSource source
  { loopCount := loops.count
    loopDepth := loops.maxDepth
    recursion := Scan.recursion? source
    isBinarySearch := Scan.isBinarySearch source
    isLinearSearch := Scan.isLinearSearch source }

end Signals

end OrderOfGrowth
