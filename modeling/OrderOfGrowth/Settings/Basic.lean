import OrderOfGrowth.Format

/-!
The settings, in three sections, and what they are when nothing is set.
-/

set_option autoImplicit false

namespace OrderOfGrowth

structure OutputSettings where
  format : Format := .text
  color : Bool := true
  deriving DecidableEq, Repr

structure HighlightSettings where
  language : Text := ['c']
  enabled : Bool := true
  deriving DecidableEq, Repr

structure ReportSettings where
  title : Text := "Time Complexity Analysis".toList
  deriving DecidableEq, Repr

structure Settings where
  output : OutputSettings := {}
  highlight : HighlightSettings := {}
  report : ReportSettings := {}
  deriving DecidableEq, Repr

end OrderOfGrowth
