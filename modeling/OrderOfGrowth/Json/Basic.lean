import OrderOfGrowth.Number.Binary64

/-!
JSON values. The members of an object keep their order, and of several members with one name the
last counts.
-/

set_option autoImplicit false

namespace OrderOfGrowth

open Number (Binary64)

-- A JSON value. Numbers are integers of 64 bits, signed or not, or else floating point numbers.
inductive Json where
  | null
  | bool (value : Bool)
  | integer (value : Int)
  | float (value : Binary64)
  | string (value : Text)
  | array (items : List Json)
  | object (members : List (Text × Json))

namespace Json

def natural (n : Nat) : Json :=
  .integer n

def member? (name : Text) (members : List (Text × Json)) : Option Json :=
  members.reverse.lookup name

end Json

end OrderOfGrowth
