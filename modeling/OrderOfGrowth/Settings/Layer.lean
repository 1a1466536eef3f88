import OrderOfGrowth.Settings.Value

/-!
Layers of settings. Each value remembers which layer it is from; where two layers meet, tables are
merged name by name, and anything else is replaced by what the newer layer has.
-/

set_option autoImplicit false

namespace OrderOfGrowth.Settings

inductive Source where
  | defaults
  | file (shown : Text)
  | environment
  deriving DecidableEq, Repr

inductive Layered where
  | leaf (source : Source) (value : Value)
  | table (source : Source) (members : List (Text × Layered))

namespace Layered

mutual

def ofValue (source : Source) : Value → Layered
  | .table members => .table source (ofMembers source members)
  | value => .leaf source value

-- The members of a table, all of one source. Of members with one name the last counts.
def ofMembers (source : Source) : List (Text × Value) → List (Text × Layered)
  | [] => []
  | (name, value) :: members =>
    if (members.lookup name).isSome then ofMembers source members
    else (name, ofValue source value) :: ofMembers source members

end

-- The source of a value; of a merged table it is the newest layer that has it.
def source : Layered → Source
  | .leaf source _ => source
  | .table source _ => source

def update (name : Text) (change : Option Layered → Layered) :
    List (Text × Layered) → List (Text × Layered)
  | [] => [(name, change none)]
  | (other, value) :: members =>
    if other = name then (other, change (some value)) :: members
    else (other, value) :: update name change members

mutual

def override : Layered → Layered → Layered
  | .leaf source value, _ => .leaf source value
  | .table source members, .table _ older => .table source (overrideMembers members older)
  | .table source members, .leaf _ _ => .table source (overrideMembers members [])

def overrideMembers : List (Text × Layered) → List (Text × Layered) → List (Text × Layered)
  | [], older => older
  | (name, value) :: members, older =>
    overrideMembers members (update name (fun below => match below with
      | some below => override value below
      | none => value) older)

end

def merge (layers : List Layered) : Layered :=
  layers.foldl (fun below layer => override layer below) (.table .defaults [])

def member? (name : Text) : Layered → Option Layered
  | .leaf _ _ => none
  | .table _ members => members.lookup name

end Layered

end OrderOfGrowth.Settings
