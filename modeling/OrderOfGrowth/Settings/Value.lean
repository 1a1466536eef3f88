import OrderOfGrowth.Number.Binary64
import OrderOfGrowth.Text.Quoted

/-!
The values that settings files and environment variables can hold, before it is known what they are
for.
-/

set_option autoImplicit false

namespace OrderOfGrowth.Settings

open Number (Binary64)

-- A value. Whole numbers from files are signed; those from the environment are unsigned unless
-- they are negative. A date is a table with one member of a reserved name.
inductive Value where
  | text (s : Text)
  | character (c : Char)
  | flag (b : Bool)
  | signed (z : Int)
  | unsigned (n : Nat)
  | float (x : Binary64)
  | list (items : List Value)
  | table (members : List (Text × Value))

namespace Value

def dateName : Text :=
  "$__toml_private_datetime".toList

def date (written : Text) : Value :=
  .table [(dateName, .text written)]

def foundText : Value → Text
  | .text s => "string ".toList ++ Text.quoted s
  | .character c => "string ".toList ++ Text.quoted [c]
  | .flag b => "bool ".toList ++ (if b then "true" else "false").toList
  | .signed z => "signed int `".toList ++ Text.signedDecimal z ++ "`".toList
  | .unsigned n => "unsigned int `".toList ++ Text.decimal n ++ "`".toList
  | .float x => "float `".toList ++ x.plainText ++ "`".toList
  | .list _ => "sequence".toList
  | .table _ => "map".toList

end Value

end OrderOfGrowth.Settings
