/-!
Sets of code points given as ascending, disjoint ranges.
-/

set_option autoImplicit false

namespace OrderOfGrowth.Text

def inRanges : List (Nat × Nat) → Nat → Bool
  | [], _ => false
  | (low, high) :: ranges, n =>
    if n < low then false else if n ≤ high then true else inRanges ranges n

end OrderOfGrowth.Text
