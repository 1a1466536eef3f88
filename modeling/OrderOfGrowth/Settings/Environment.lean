import OrderOfGrowth.Number.Word
import OrderOfGrowth.Settings.Value
import OrderOfGrowth.Text.Numeral
import OrderOfGrowth.Text.WhiteSpace

/-!
Settings from environment variables. The name of a variable says which setting it is for, and its
value is read by a small grammar; a value that the grammar does not cover is a string as it stands.
-/

set_option autoImplicit false

namespace OrderOfGrowth.Settings

def variableMark : Text :=
  "bigo_".toList

def dotted : Text → Text
  | '_' :: '_' :: s => '.' :: dotted s
  | c :: s => c :: dotted s
  | [] => []

-- The path of the setting that a variable is for, in lower case. Names with an empty part are for
-- none.
def variablePath? (name : Text) : Option (List Text) :=
  let lower := (Text.trimBy Text.isWhiteSpace name).map Char.toLower
  match Text.after? variableMark lower with
  | none => none
  | some rest =>
    let path := Text.splitOn '.' (Text.trimBy Text.isWhiteSpace (dotted rest))
    if [] ∈ path then none else some path

def isSeparator (c : Char) : Bool :=
  ",\x7b\x7d[]".toList.contains c

def isMemberChar (c : Char) : Bool :=
  c.isAlphanum || c == '_' || c == '-'

def skipBlanks (s : Text) : Text :=
  s.dropWhile Text.isAsciiBlank

def quotedRest? : Nat → Text → Option (Text × Text)
  | 0, _ => none
  | _ + 1, [] => none
  | fuel + 1, c :: s =>
    if c = '"' then some ([], s)
    else if c = '\\' then do
      let (c, s) ← Text.escaped? s
      let (more, rest) ← quotedRest? fuel s
      pure (c :: more, rest)
    else if Text.isControl c then none
    else do
      let (more, rest) ← quotedRest? fuel s
      pure (c :: more, rest)

def unsigned? (s : Text) : Option Nat :=
  let digits :=
    match s with
    | '+' :: s => s
    | s => s
  (Text.natural? digits).filter Number.fitsWord

def signed? (s : Text) : Option Int := do
  let (negative, digits) := Text.takeSign s
  let n ← Text.natural? digits
  let z : Int := if negative then -(n : Int) else n
  if Number.fitsSignedWord z then some z else none

-- An unquoted value: a number if it reads as one, and only with a point a floating point number.
def plain (s : Text) : Value :=
  match (if s.contains '.' then Text.float? s else none) with
  | some x => .float x
  | none =>
    match unsigned? s with
    | some n => .unsigned n
    | none =>
      match signed? s with
      | some z => .signed z
      | none => .text s

mutual

def value? : Nat → Text → Option (Value × Text)
  | 0, _ => none
  | fuel + 1, s => do
    let s := skipBlanks s
    let (value, rest) ←
      match Text.after? "true".toList s, Text.after? "false".toList s, s with
      | some rest, _, _ => some (Value.flag true, rest)
      | _, some rest, _ => some (Value.flag false, rest)
      | _, _, '{' :: s => (members? fuel s).map fun (members, rest) => (.table members, rest)
      | _, _, '[' :: s => (items? fuel s).map fun (items, rest) => (.list items, rest)
      | _, _, '"' :: s =>
        (quotedRest? (s.length + 1) s).map fun (found, rest) => (.text found, rest)
      | _, _, '\'' :: c :: '\'' :: rest => some (.character c, rest)
      | _, _, '\'' :: _ => none
      | _, _, s =>
        let run := s.takeWhile (!isSeparator ·)
        some (plain (Text.trimBy Text.isWhiteSpace run), s.drop run.length)
    pure (value, skipBlanks rest)

-- The items of a list and its closing bracket. A comma may stand behind the last item.
def items? : Nat → Text → Option (List Value × Text)
  | 0, _ => none
  | fuel + 1, s =>
    match s with
    | ']' :: rest => some ([], rest)
    | s => do
      let (item, s) ← value? fuel s
      match s with
      | ']' :: rest => pure ([item], rest)
      | ',' :: s =>
        let (items, rest) ← items? fuel s
        pure (item :: items, rest)
      | _ => none

-- The members of a table and its closing brace. A comma may stand behind the last member.
def members? : Nat → Text → Option (List (Text × Value) × Text)
  | 0, _ => none
  | fuel + 1, s =>
    match s with
    | '}' :: rest => some ([], rest)
    | s => do
      let s := skipBlanks s
      let name := s.takeWhile isMemberChar
      if name = [] then none
      let s ← Text.after? ['='] (skipBlanks (s.drop name.length))
      let (value, s) ← value? fuel s
      match s with
      | '}' :: rest => pure ([(name, value)], rest)
      | ',' :: s =>
        let (members, rest) ← members? fuel s
        pure ((name, value) :: members, rest)
      | _ => none

end

def variableValue (s : Text) : Value :=
  match value? (2 * s.length + 2) s with
  | some (value, []) => value
  | _ => .text s

def nest (value : Value) : List Text → Value
  | [] => value
  | name :: path => .table [(name, nest value path)]

def fromEnvironment (environment : List (Text × Text)) : List Value :=
  environment.filterMap fun (name, value) =>
    (variablePath? name).map fun path => nest (variableValue value) path

end OrderOfGrowth.Settings
