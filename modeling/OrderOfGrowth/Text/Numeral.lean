import OrderOfGrowth.Text.Basic
import OrderOfGrowth.Number.Binary64

/-!
Numerals inside values: digits, decimals with a point or an exponent, and the escapes of
characters by their code points.
-/

set_option autoImplicit false

namespace OrderOfGrowth.Text

open Number (Binary64)

-- Takes a sign off the front: whether it was a minus, and the rest.
def takeSign : Text → Bool × Text
  | '-' :: s => (true, s)
  | '+' :: s => (false, s)
  | s => (false, s)

-- The natural number of a text of digits; there has to be at least one.
def natural? (s : Text) : Option Nat :=
  if s = [] || !s.all Char.isDigit then none else valueOfDigits? 10 s

def splitExponent (s : Text) : Text × Option Text :=
  let mantissa := s.takeWhile fun c => c ≠ 'e' && c ≠ 'E'
  match s.drop mantissa.length with
  | _ :: exponent => (mantissa, some exponent)
  | [] => (mantissa, none)

def splitPoint (s : Text) : Text × Option Text :=
  let whole := s.takeWhile (· ≠ '.')
  match s.drop whole.length with
  | _ :: fraction => (whole, some fraction)
  | [] => (whole, none)

def exponent? (s : Text) : Option Int :=
  let (negative, digits) := takeSign s
  (natural? digits).map fun n => if negative then -(n : Int) else n

-- The number nearest to a decimal given by the digits before and after its point and its
-- exponent.
def nearest? (negative : Bool) (whole fraction : Text) (exponent : Int) : Option Binary64 :=
  (natural? (whole ++ fraction)).map fun digits =>
    Binary64.ofDecimal negative digits (exponent - fraction.length)

-- A decimal with a sign or without, with a point or without, and with digits on at least one side
-- of it.
def float? (s : Text) : Option Binary64 := do
  let (negative, s) := takeSign s
  let (mantissa, power) := splitExponent s
  let exponent ← match power with
    | some power => exponent? power
    | none => some 0
  let (whole, fraction) := splitPoint mantissa
  nearest? negative whole (fraction.getD []) exponent

def codePoint? (digits : Nat) (s : Text) : Option (Char × Text) :=
  if s.length < digits then none
  else do
    let n ← valueOfDigits? 16 (s.take digits)
    let c ← charOf? n
    pure (c, s.drop digits)

def escaped? : Text → Option (Char × Text)
  | '"' :: s => some ('"', s)
  | '\\' :: s => some ('\\', s)
  | 'b' :: s => some ('\x08', s)
  | 'f' :: s => some ('\x0c', s)
  | 'n' :: s => some ('\n', s)
  | 'r' :: s => some ('\r', s)
  | 't' :: s => some ('\t', s)
  | 'u' :: s => codePoint? 4 s
  | 'U' :: s => codePoint? 8 s
  | _ => none

-- Whether a character may not stand in a string as it is: the control characters of ASCII, apart
-- from the tab.
def isControl (c : Char) : Bool :=
  (c.toNat < 32 && c != '\t') || c.toNat == 127

end OrderOfGrowth.Text
