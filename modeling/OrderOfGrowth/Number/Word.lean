import OrderOfGrowth.Text.Basic

/-!
Whole numbers that fit into words of 64 bits, with a sign or without one.
-/

set_option autoImplicit false

namespace OrderOfGrowth.Number

def wordBound : Nat :=
  18446744073709551616

-- The least number that a word with a sign does not hold. Its negation is the least that it
-- holds.
def signedBound : Nat :=
  9223372036854775808

def fitsWord (n : Nat) : Bool :=
  n < wordBound

def fitsSignedWord (z : Int) : Bool :=
  -(signedBound : Int) ≤ z && z < (signedBound : Int)

end OrderOfGrowth.Number
