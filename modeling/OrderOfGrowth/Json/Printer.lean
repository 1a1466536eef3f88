import OrderOfGrowth.Json.Basic

/-!
JSON as text, with two spaces for each level and one item or member to a line. Characters beyond
ASCII are written as they are.
-/

set_option autoImplicit false

namespace OrderOfGrowth.Json

-- A control character as an escape: the short form if it has one, else its code point.
def controlEscape (c : Char) : Text :=
  if c = '\x08' then "\\b".toList
  else if c = '\x0c' then "\\f".toList
  else if c = '\n' then "\\n".toList
  else if c = '\r' then "\\r".toList
  else if c = '\t' then "\\t".toList
  else "\\u".toList ++ Text.padLeft '0' 4 (Nat.toDigits 16 c.toNat)

def escapeChar (c : Char) : Text :=
  if c = '"' then "\\\"".toList
  else if c = '\\' then "\\\\".toList
  else if c.toNat < 32 then controlEscape c
  else [c]

def printString (s : Text) : Text :=
  '"' :: s.flatMap escapeChar ++ ['"']

def newLine (level : Nat) : Text :=
  '\n' :: List.replicate (2 * level) ' '

mutual

def print (level : Nat) : Json → Text
  | .null => "null".toList
  | .bool true => "true".toList
  | .bool false => "false".toList
  | .integer z => Text.signedDecimal z
  | .float x => x.pointText
  | .string s => printString s
  | .array [] => "[]".toList
  | .array (item :: items) =>
    '[' :: newLine (level + 1) ++ print (level + 1) item ++ printItems (level + 1) items ++
      newLine level ++ [']']
  | .object [] => "\x7b\x7d".toList
  | .object ((name, value) :: members) =>
    '{' :: newLine (level + 1) ++ printString name ++ ": ".toList ++ print (level + 1) value ++
      printMembers (level + 1) members ++ newLine level ++ ['}']

def printItems (level : Nat) : List Json → Text
  | [] => []
  | item :: items => ',' :: newLine level ++ print level item ++ printItems level items

def printMembers (level : Nat) : List (Text × Json) → Text
  | [] => []
  | (name, value) :: members =>
    ',' :: newLine level ++ printString name ++ ": ".toList ++ print level value ++
      printMembers level members

end

def pretty (value : Json) : Text :=
  print 0 value

end OrderOfGrowth.Json
