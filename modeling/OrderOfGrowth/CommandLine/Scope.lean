import OrderOfGrowth.CommandLine.Basic

/-!
Options and their values. A scope knows its options by long names and by letters. Options are
settled one after the other: a value that stands in an argument of its own is settled only when
the next option comes or the arguments end, so a fault in what comes first may be reported after
one in what comes later.
-/

set_option autoImplicit false

namespace OrderOfGrowth.CommandLine

inductive Role (ι : Type) where
  | flag (option : ι)
  | valued (option : ι)
  | help
  | version

structure Scope (ι : Type) where
  named : Text → Option (Role ι)
  lettered : Char → Option (Role ι)
  accepts : ι → Text → Bool

-- Options as far as they have been read: those that are settled, with their values, and the last
-- one, whose value may still be missing.
structure Given (ι : Type) where
  settled : List (ι × Text)
  pending : Option (ι × Option Text)

namespace Given

variable {ι : Type} [BEq ι]

def none : Given ι :=
  ⟨[], .none⟩

def awaits (given : Given ι) : Bool :=
  match given.pending with
  | some (_, .none) => true
  | _ => false

def has (given : Given ι) (option : ι) : Bool :=
  given.settled.any (·.1 == option) || given.pending.any (·.1 == option)

def value? (given : Given ι) (option : ι) : Option Text :=
  given.settled.lookup option

def supply (given : Given ι) (value : Text) : Given ι :=
  { given with pending := given.pending.map fun (option, _) => (option, some value) }

end Given

namespace Scope

variable {ι : Type} [BEq ι]

-- Settles an option. Each may be given once, and its value has to be acceptable.
def put (scope : Scope ι) (given : Given ι) (option : ι) (value : Text) :
    Except Rejection (Given ι) :=
  if given.settled.any (·.1 == option) then .error .argumentConflict
  else if !scope.accepts option value then .error .invalidValue
  else .ok ⟨given.settled ++ [(option, value)], none⟩

def settle (scope : Scope ι) (given : Given ι) : Except Rejection (Given ι) :=
  match given.pending with
  | none => .ok given
  | some (_, none) => .error .invalidValue
  | some (option, some value) => scope.put given option value

def take (scope : Scope ι) (given : Given ι) (role : Role ι) (attached : Option Text) :
    Except Rejection (Given ι) :=
  match role, attached with
  | .valued option, some value => do
    let given ← scope.settle given
    scope.put given option value
  | .valued option, none => do
    let given ← scope.settle given
    pure { given with pending := some (option, none) }
  | _, some _ => .error .tooManyValues
  | .flag option, none => do
    let given ← scope.settle given
    scope.put given option []
  | .help, none => do
    let _ ← scope.settle given
    throw .helpWanted
  | .version, none => do
    let _ ← scope.settle given
    throw .versionWanted

def attachedValue? (s : Text) : Option Text :=
  match s with
  | '=' :: value => some value
  | _ => none

def takeLong (scope : Scope ι) (given : Given ι) (s : Text) : Except Rejection (Given ι) :=
  let name := s.takeWhile (· ≠ '=')
  match scope.named name with
  | some role => scope.take given role (attachedValue? (s.drop name.length))
  | none => .error .unknownArgument

-- Reads an argument that starts with one dash, given what follows it: letters of flags, and at
-- most one of an option with a value, which takes all that follows.
def takeLetters (scope : Scope ι) (given : Given ι) : Text → Except Rejection (Given ι)
  | [] => .ok given
  | c :: s =>
    match scope.lettered c with
    | none => .error .unknownArgument
    | some (.valued option) =>
      let attached := if s = [] then none else some ((attachedValue? s).getD s)
      scope.take given (.valued option) attached
    | some role =>
      match scope.take given role none with
      | .ok given => takeLetters scope given s
      | .error rejection => .error rejection

-- Reads an argument as options, if it looks like some: it starts with a dash and is neither a
-- dash nor two of them.
def takeOptions? (scope : Scope ι) (given : Given ι) (arg : Text) :
    Option (Except Rejection (Given ι)) :=
  match arg with
  | ['-'] => none
  | ['-', '-'] => none
  | '-' :: '-' :: s => some (scope.takeLong given s)
  | '-' :: s => some (scope.takeLetters given s)
  | _ => none

end Scope

end OrderOfGrowth.CommandLine
