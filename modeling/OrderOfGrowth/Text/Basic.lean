/-!
Texts and the few questions asked of them: does a text start with another, does some suffix pass a
test, how many do, and which lines is it made of.
-/

set_option autoImplicit false

namespace OrderOfGrowth

abbrev Text := List Char

namespace Text

def after? : Text → Text → Option Text
  | [], s => some s
  | _ :: _, [] => none
  | a :: head, c :: s => if a = c then after? head s else none

-- Whether some suffix passes the test; the text itself and the empty text are suffixes.
def someSuffix (test : Text → Bool) : Text → Bool
  | [] => test []
  | c :: s => test (c :: s) || someSuffix test s

def occurs (part s : Text) : Bool :=
  someSuffix part.isPrefixOf s

-- The lines of a text. A line ends before a line feed, or before a carriage return and line feed;
-- the last one may lack its end, and there is no line after a final line feed.
def lines : Text → List Text
  | [] => []
  | '\n' :: s => [] :: lines s
  | '\r' :: '\n' :: s => [] :: lines s
  | c :: s =>
    match lines s with
    | [] => [[c]]
    | l :: ls => (c :: l) :: ls

def decimal (n : Nat) : Text :=
  Nat.toDigits 10 n

def signedDecimal (z : Int) : Text :=
  if z < 0 then '-' :: decimal z.natAbs else decimal z.natAbs

def padLeft (c : Char) (width : Nat) (s : Text) : Text :=
  List.replicate (width - s.length) c ++ s

-- The text between the separators `sep`. A text without separators is one part.
def splitOn (sep : Char) : Text → List Text
  | [] => [[]]
  | c :: s =>
    if c = sep then [] :: splitOn sep s
    else
      match splitOn sep s with
      | [] => [[c]]
      | p :: ps => (c :: p) :: ps

def joinWith (sep : Text) : List Text → Text
  | [] => []
  | [p] => p
  | p :: q :: ps => p ++ sep ++ joinWith sep (q :: ps)

def hexValue? (c : Char) : Option Nat :=
  if '0' ≤ c ∧ c ≤ '9' then some (c.toNat - '0'.toNat)
  else if 'a' ≤ c ∧ c ≤ 'f' then some (c.toNat - 'a'.toNat + 10)
  else if 'A' ≤ c ∧ c ≤ 'F' then some (c.toNat - 'A'.toNat + 10)
  else none

def valueOfDigits? (base : Nat) (digits : Text) : Option Nat :=
  digits.foldlM
    (fun n c => do
      let d ← hexValue? c
      if d < base then pure (base * n + d) else none)
    0

-- The character of a code point; surrogates and numbers beyond the last code point have none.
def charOf? (n : Nat) : Option Char :=
  if h : n.isValidChar then some (Char.ofNatAux n h) else none

end Text

end OrderOfGrowth
