import OrderOfGrowth.Settings.Value

/-!
TOML documents while they are being read. A table remembers how it came about, because that decides
what may still be added to it: a table with a header is not opened again, one made by a dotted key
grows by dotted keys only, and one that was only passed through may still get its header.
-/

set_option autoImplicit false

namespace OrderOfGrowth.Toml

open Settings (Value)

inductive Origin where
  | header
  | passed
  | dotted
  deriving DecidableEq, Repr

inductive Entry where
  | value (value : Value)
  | table (origin : Origin) (members : List (Text × Entry))
  | tables (tables : List (List (Text × Entry)))

abbrev Members := List (Text × Entry)

namespace Members

def replace (members : Members) (name : Text) (entry : Entry) : Members :=
  members.map fun member => if member.1 = name then (name, entry) else member

def add (members : Members) (name : Text) (entry : Entry) : Members :=
  members ++ [(name, entry)]

def changeLast? (change : Members → Option Members) : List Members → Option (List Members)
  | [] => none
  | [last] => (change last).map ([·])
  | table :: more => (changeLast? change more).map (table :: ·)

-- Adds a value under a dotted key: the names on the way, and the last name. Tables on the way are
-- made where they are missing; those with a header, and values, are not entered.
def addDotted? (value : Value) (last : Text) : List Text → Members → Option Members
  | [], members =>
    match members.lookup last with
    | some _ => none
    | none => some (members.add last (.value value))
  | name :: rest, members =>
    match members.lookup name with
    | none =>
      (addDotted? value last rest []).map fun inner => members.add name (.table .dotted inner)
    | some (.table origin inner) =>
      if origin = .header ∨ (rest = [] ∧ origin ≠ .dotted) then none
      else (addDotted? value last rest inner).map fun inner =>
        members.replace name (.table origin inner)
    | some (.tables tables) =>
      if rest = [] then none
      else (changeLast? (addDotted? value last rest) tables).map fun tables =>
        members.replace name (.tables tables)
    | some (.value _) => none

-- Goes down to the table that a header names, all but the last name, and changes it there. Tables
-- on the way are made where they are missing; of several tables the last is entered.
def descend? (change : Members → Option Members) : List Text → Members → Option Members
  | [], members => change members
  | name :: rest, members =>
    match members.lookup name with
    | none => (descend? change rest []).map fun inner => members.add name (.table .passed inner)
    | some (.table origin inner) =>
      (descend? change rest inner).map fun inner => members.replace name (.table origin inner)
    | some (.tables tables) =>
      (changeLast? (descend? change rest) tables).map fun tables =>
        members.replace name (.tables tables)
    | some (.value _) => none

def openTable? (name : Text) (members : Members) : Option Members :=
  match members.lookup name with
  | none => some (members.add name (.table .header []))
  | some (.table .passed inner) => some (members.replace name (.table .header inner))
  | some _ => none

def openNext? (name : Text) (members : Members) : Option Members :=
  match members.lookup name with
  | none => some (members.add name (.tables [[]]))
  | some (.tables tables) => some (members.replace name (.tables (tables ++ [[]])))
  | some _ => none

end Members

mutual

def Entry.toValue : Entry → Value
  | .value value => value
  | .table _ members => .table (membersToValues members)
  | .tables tables => .list (tablesToValues tables)

def membersToValues : List (Text × Entry) → List (Text × Value)
  | [] => []
  | (name, entry) :: members => (name, entry.toValue) :: membersToValues members

def tablesToValues : List (List (Text × Entry)) → List Value
  | [] => []
  | table :: tables => .table (membersToValues table) :: tablesToValues tables

end

end OrderOfGrowth.Toml
