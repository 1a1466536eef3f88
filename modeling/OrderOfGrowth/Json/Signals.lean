import OrderOfGrowth.Json.Basic
import OrderOfGrowth.Signals
import OrderOfGrowth.Text.Quoted

/-!
Signals as JSON values. Reading accepts an object with the five fields, whatever else it has, or the
five values in an array. The fields of an object are read in the order of their names, and only then
is a missing one reported, in the order in which they are declared.
-/

set_option autoImplicit false

namespace OrderOfGrowth

inductive Expected where
  | signals
  | recursion
  | count
  | switch
  | name
  deriving DecidableEq, Repr

def Expected.text : Expected → Text
  | .signals => "struct AnalysisSignals".toList
  | .recursion => "struct Recursion".toList
  | .count => "usize".toList
  | .switch => "a boolean".toList
  | .name => "a string".toList

inductive DecodeError where
  | wrongType (found : Json) (expected : Expected)
  | negative (found : Int) (expected : Expected)
  | missing (field : Text)
  | tooShort (length : Nat) (expected : Expected) (fields : Nat)
  | tooLong (length : Nat)

namespace DecodeError

def foundText : Json → Text
  | .null => "null".toList
  | .bool b => "boolean `".toList ++ (if b then "true" else "false").toList ++ "`".toList
  | .integer z => "integer `".toList ++ Text.signedDecimal z ++ "`".toList
  | .float x => "floating point `".toList ++ x.pointText ++ "`".toList
  | .string s => "string ".toList ++ Text.quoted s
  | .array _ => "sequence".toList
  | .object _ => "map".toList

def message : DecodeError → Text
  | .wrongType found expected =>
    "invalid type: ".toList ++ foundText found ++ ", expected ".toList ++ expected.text
  | .negative found expected =>
    "invalid value: ".toList ++ foundText (.integer found) ++ ", expected ".toList ++ expected.text
  | .missing field => "missing field `".toList ++ field ++ "`".toList
  | .tooShort length expected fields =>
    "invalid length ".toList ++ Text.decimal length ++ ", expected ".toList ++ expected.text ++
      " with ".toList ++ Text.decimal fields ++ " elements".toList
  | .tooLong length =>
    "invalid length ".toList ++ Text.decimal length ++ ", expected fewer elements in array".toList

end DecodeError

namespace Json

-- A count: a whole number that is not negative.
def toCount : Json → Except DecodeError Nat
  | .integer z => if z < 0 then .error (.negative z .count) else .ok z.natAbs
  | value => .error (.wrongType value .count)

def toSwitch : Json → Except DecodeError Bool
  | .bool b => .ok b
  | value => .error (.wrongType value .switch)

def toName : Json → Except DecodeError Text
  | .string s => .ok s
  | value => .error (.wrongType value .name)

def field {α : Type} (members : List (Text × Json)) (name : Text)
    (read : Json → Except DecodeError α) : Except DecodeError (Option α) :=
  match member? name members with
  | some value => (read value).map some
  | none => .ok none

def required {α : Type} (name : Text) : Option α → Except DecodeError α
  | some value => .ok value
  | none => .error (.missing name)

def place {α : Type} (items : List Json) (expected : Expected) (fields index : Nat)
    (read : Json → Except DecodeError α) : Except DecodeError α :=
  match items[index]? with
  | some value => read value
  | none => .error (.tooShort items.length expected fields)

def noMoreThan (fields : Nat) (items : List Json) : Except DecodeError Unit :=
  if fields < items.length then .error (.tooLong items.length) else .ok ()

def toRecursion : Json → Except DecodeError Scan.Recursion
  | .object members => do
    let callCount ← field members "call_count".toList toCount
    let functionName ← field members "function_name".toList toName
    let functionName ← required "function_name".toList functionName
    let callCount ← required "call_count".toList callCount
    pure ⟨functionName, callCount⟩
  | .array items => do
    let functionName ← place items .recursion 2 0 toName
    let callCount ← place items .recursion 2 1 toCount
    noMoreThan 2 items
    pure ⟨functionName, callCount⟩
  | value => .error (.wrongType value .recursion)

def toRecursion? : Json → Except DecodeError (Option Scan.Recursion)
  | .null => .ok none
  | value => (toRecursion value).map some

-- Signals. The recursion may also be missing.
def toSignals : Json → Except DecodeError OrderOfGrowth.Signals
  | .object members => do
    let isBinarySearch ← field members "is_binary_search".toList toSwitch
    let isLinearSearch ← field members "is_linear_search".toList toSwitch
    let loopCount ← field members "loop_count".toList toCount
    let loopDepth ← field members "loop_depth".toList toCount
    let recursion ← field members "recursion".toList toRecursion?
    let loopCount ← required "loop_count".toList loopCount
    let loopDepth ← required "loop_depth".toList loopDepth
    let isBinarySearch ← required "is_binary_search".toList isBinarySearch
    let isLinearSearch ← required "is_linear_search".toList isLinearSearch
    pure ⟨loopCount, loopDepth, recursion.getD none, isBinarySearch, isLinearSearch⟩
  | .array items => do
    let loopCount ← place items .signals 5 0 toCount
    let loopDepth ← place items .signals 5 1 toCount
    let recursion ← place items .signals 5 2 toRecursion?
    let isBinarySearch ← place items .signals 5 3 toSwitch
    let isLinearSearch ← place items .signals 5 4 toSwitch
    noMoreThan 5 items
    pure ⟨loopCount, loopDepth, recursion, isBinarySearch, isLinearSearch⟩
  | value => .error (.wrongType value .signals)

def ofRecursion (recursion : Scan.Recursion) : Json :=
  .object [("function_name".toList, .string recursion.functionName),
    ("call_count".toList, natural recursion.callCount)]

def ofSignals (signals : OrderOfGrowth.Signals) : Json :=
  .object [("loop_count".toList, natural signals.loopCount),
    ("loop_depth".toList, natural signals.loopDepth),
    ("recursion".toList, (signals.recursion.map ofRecursion).getD .null),
    ("is_binary_search".toList, .bool signals.isBinarySearch),
    ("is_linear_search".toList, .bool signals.isLinearSearch)]

end Json

end OrderOfGrowth
