import OrderOfGrowth.Number.Word
import OrderOfGrowth.Settings.Value
import OrderOfGrowth.Text.Numeral

/-!
The values of TOML that are written without quotes: booleans, whole numbers to four bases, floating
point numbers, dates and times. Each is one run of letters, digits and a few signs; only between a
date and its time may a space stand.
-/

set_option autoImplicit false

namespace OrderOfGrowth.Toml

open Number (Binary64)
open Settings (Value)

def isRunChar (c : Char) : Bool :=
  c.isAlphanum || "_+-.:".toList.contains c

def digits? (isDigit : Char → Bool) : Text → Option Text
  | [] => none
  | [c] => if isDigit c then some [c] else none
  | c :: '_' :: s => if isDigit c then (digits? isDigit s).map (c :: ·) else none
  | c :: s => if isDigit c then (digits? isDigit s).map (c :: ·) else none

-- The digits of a whole number to the base ten. Of several the first is no zero.
def wholeDigits? (s : Text) : Option Text :=
  match digits? Char.isDigit s with
  | some ('0' :: _ :: _) => none
  | found => found

def inRange? (z : Int) : Option Value :=
  if Number.fitsSignedWord z then some (.signed z) else none

def based? (base : Nat) (s : Text) : Option Value := do
  let digits ← digits? (fun c => (Text.hexValue? c).any (· < base)) s
  let n ← Text.valueOfDigits? base digits
  inRange? n

def integer? (s : Text) : Option Value :=
  match s with
  | '0' :: 'x' :: s => based? 16 s
  | '0' :: 'o' :: s => based? 8 s
  | '0' :: 'b' :: s => based? 2 s
  | s => do
    let (negative, s) := Text.takeSign s
    let digits ← wholeDigits? s
    let n ← Text.valueOfDigits? 10 digits
    inRange? (if negative then -(n : Int) else n)

def special? (negative : Bool) (s : Text) : Option Binary64 :=
  if s = "inf".toList then some (.infinite negative)
  else if s = "nan".toList then some .undefined
  else none

def exponent? (s : Text) : Option Int := do
  let (negative, s) := Text.takeSign s
  let digits ← digits? Char.isDigit s
  let n ← Text.valueOfDigits? 10 digits
  pure (if negative then -(n : Int) else n)

-- A decimal: whole digits, and a fraction or an exponent or both.
def decimal? (negative : Bool) (s : Text) : Option Binary64 := do
  let (mantissa, power) := Text.splitExponent s
  let (whole, point) := Text.splitPoint mantissa
  if point = none ∧ power = none then none
  let whole ← wholeDigits? whole
  let fraction ← match point with
    | some fraction => digits? Char.isDigit fraction
    | none => some []
  let exponent ← match power with
    | some power => exponent? power
    | none => some 0
  Text.nearest? negative whole fraction exponent

-- A floating point number. One that is too large is refused, but one that is too small below zero
-- is infinite.
def float? (s : Text) : Option Value :=
  let (negative, s) := Text.takeSign s
  match special? negative s with
  | some x => some (.float x)
  | none =>
    match decimal? negative s with
    | some (.infinite false) => none
    | found => found.map .float

def field? (count low high : Nat) (s : Text) : Option (Nat × Text) := do
  let n ← Text.natural? (s.take count)
  if s.length < count ∨ n < low ∨ high < n then none else some (n, s.drop count)

def daysIn (year month : Nat) : Nat :=
  if month = 2 then
    if year % 4 = 0 ∧ (year % 100 ≠ 0 ∨ year % 400 = 0) then 29 else 28
  else if month ∈ [4, 6, 9, 11] then 30
  else 31

def sign? (c : Char) (s : Text) : Option Text :=
  Text.after? [c] s

def afterDate? (s : Text) : Option Text := do
  let (year, s) ← field? 4 0 9999 s
  let s ← sign? '-' s
  let (month, s) ← field? 2 1 12 s
  let s ← sign? '-' s
  let (_, s) ← field? 2 1 (daysIn year month) s
  pure s

-- What follows a time of day. The seconds may have a fraction.
def afterTime? (s : Text) : Option Text := do
  let (_, s) ← field? 2 0 23 s
  let s ← sign? ':' s
  let (_, s) ← field? 2 0 59 s
  let s ← sign? ':' s
  let (_, s) ← field? 2 0 60 s
  match s with
  | '.' :: fraction =>
    let digits := fraction.takeWhile Char.isDigit
    if digits = [] then none else pure (fraction.drop digits.length)
  | s => pure s

def afterOffset? : Text → Option Text
  | 'Z' :: s => some s
  | 'z' :: s => some s
  | c :: s =>
    if c = '+' ∨ c = '-' then do
      let (_, s) ← field? 2 0 23 s
      let s ← sign? ':' s
      let (_, s) ← field? 2 0 59 s
      pure s
    else some (c :: s)
  | [] => some []

def isTime (offset : Bool) (s : Text) : Bool :=
  (do
    let rest ← afterTime? s
    if offset then afterOffset? rest else some rest) == some []

def isDate (s : Text) : Bool :=
  match afterDate? s with
  | some [] => true
  | some (c :: time) => (c == 'T' || c == 't') && isTime true time
  | none => false

def run? (s : Text) : Option Value :=
  if s = "true".toList then some (.flag true)
  else if s = "false".toList then some (.flag false)
  else if isDate s || isTime false s then some (.date s)
  else
    match float? s with
    | some x => some x
    | none => integer? s

-- A value without quotes, and the rest. A date may be followed by one space and a time.
def scalar? (s : Text) : Option (Value × Text) := do
  let run := s.takeWhile isRunChar
  let rest := s.drop run.length
  let value ← run? run
  match rest with
  | ' ' :: next =>
    let time := next.takeWhile isRunChar
    if afterDate? run = some [] ∧ isTime true time then
      pure (.date (run ++ ' ' :: time), next.drop time.length)
    else pure (value, rest)
  | _ => pure (value, rest)

end OrderOfGrowth.Toml
