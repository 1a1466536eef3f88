import OrderOfGrowth.Number.Word
import OrderOfGrowth.Json.Basic

/-!
Reading JSON. A reader takes a value off the front of a text and leaves the rest. The fuel bounds
the number of steps; the length of the text is always enough, because each step takes a character.
-/

set_option autoImplicit false

namespace OrderOfGrowth.Json

open Number (Binary64)

def isBlank (c : Char) : Bool :=
  c == ' ' || c == '\t' || c == '\n' || c == '\r'

def skipBlanks (s : Text) : Text :=
  s.dropWhile isBlank

def fourDigits? : Text → Option (Nat × Text)
  | a :: b :: c :: d :: s => (Text.valueOfDigits? 16 [a, b, c, d]).map (·, s)
  | _ => none

def codePoint? (s : Text) : Option (Char × Text) := do
  let (high, rest) ← fourDigits? s
  if 0xD800 ≤ high ∧ high < 0xDC00 then
    let rest ← Text.after? "\\u".toList rest
    let (low, rest) ← fourDigits? rest
    if 0xDC00 ≤ low ∧ low < 0xE000 then
      let c ← Text.charOf? (0x10000 + (high - 0xD800) * 0x400 + (low - 0xDC00))
      pure (c, rest)
    else none
  else
    let c ← Text.charOf? high
    pure (c, rest)

def shortEscape? (c : Char) : Option Char :=
  if c = '"' then some '"'
  else if c = '\\' then some '\\'
  else if c = '/' then some '/'
  else if c = 'b' then some '\x08'
  else if c = 'f' then some '\x0c'
  else if c = 'n' then some '\n'
  else if c = 'r' then some '\r'
  else if c = 't' then some '\t'
  else none

def characters? : Nat → Text → Option (Text × Text)
  | 0, _ => none
  | _ + 1, [] => none
  | fuel + 1, c :: s =>
    if c = '"' then some ([], s)
    else if c = '\\' then
      match s with
      | [] => none
      | 'u' :: s => do
        let (c, s) ← codePoint? s
        let (more, rest) ← characters? fuel s
        pure (c :: more, rest)
      | e :: s => do
        let c ← shortEscape? e
        let (more, rest) ← characters? fuel s
        pure (c :: more, rest)
    else if c.toNat < 32 then none
    else do
      let (more, rest) ← characters? fuel s
      pure (c :: more, rest)

def string? : Text → Option (Text × Text)
  | '"' :: s => characters? (s.length + 1) s
  | _ => none

-- Digits gathered for a number, and the power of ten that they are scaled by. Digits that would
-- take it beyond 64 bits are dropped.
structure Gathered where
  digits : Nat
  exponent : Int
  full : Bool

namespace Gathered

-- Takes in a digit in front of the point; a dropped one still counts as a place.
def whole (g : Gathered) (c : Char) : Gathered :=
  let next := 10 * g.digits + (c.toNat - '0'.toNat)
  if g.full || !Number.fitsWord next then ⟨g.digits, g.exponent + 1, true⟩
  else ⟨next, g.exponent, false⟩

def fraction (g : Gathered) (c : Char) : Gathered :=
  let next := 10 * g.digits + (c.toNat - '0'.toNat)
  if g.full || !Number.fitsWord next then ⟨g.digits, g.exponent, true⟩
  else ⟨next, g.exponent - 1, false⟩

end Gathered

def fractionDigits? : Text → Option (Text × Text)
  | '.' :: s =>
    let digits := s.takeWhile Char.isDigit
    if digits = [] then none else some (digits, s.drop digits.length)
  | s => some ([], s)

def exponentDigits? (negative : Bool) (s : Text) : Option (Int × Text) :=
  let digits := s.takeWhile Char.isDigit
  if digits = [] then none
  else
    let size : Int := (Text.valueOfDigits? 10 digits).getD 0
    some (if negative then -size else size, s.drop digits.length)

def exponentPart? : Text → Option (Option Int × Text)
  | [] => some (none, [])
  | c :: s =>
    if c = 'e' ∨ c = 'E' then
      let found :=
        match s with
        | '+' :: s => exponentDigits? false s
        | '-' :: s => exponentDigits? true s
        | s => exponentDigits? false s
      found.map fun (exponent, rest) => (some exponent, rest)
    else some (none, c :: s)

-- The value of a whole number. What does not fit into 64 bits becomes a floating point number,
-- and so does a negative zero.
def wholeNumber (negative : Bool) (digits : Text) : Json :=
  let n := (Text.valueOfDigits? 10 digits).getD 0
  if !negative && Number.fitsWord n then .integer n
  else if negative && 0 < n && Number.fitsSignedWord (-n) then .integer (-n)
  else
    let g := digits.foldl Gathered.whole ⟨0, 0, false⟩
    .float (Binary64.ofScaledDigits negative g.digits g.exponent)

def fractionalNumber (negative : Bool) (digits fraction : Text) (exponent : Int) : Json :=
  let whole := digits.foldl Gathered.whole ⟨0, 0, false⟩
  let g := fraction.foldl Gathered.fraction ⟨whole.digits, whole.exponent, false⟩
  .float (Binary64.ofScaledDigits negative g.digits (g.exponent + exponent))

-- A number without its sign. A leading zero stands alone.
def unsigned? (negative : Bool) (s : Text) : Option (Json × Text) := do
  let run := s.takeWhile Char.isDigit
  let digits := if run.head? = some '0' then ['0'] else run
  if digits = [] then none
  let (fraction, rest) ← fractionDigits? (s.drop digits.length)
  let (exponent, rest) ← exponentPart? rest
  if fraction = [] ∧ exponent = none then pure (wholeNumber negative digits, rest)
  else
    match fractionalNumber negative digits fraction (exponent.getD 0) with
    | .float (.infinite _) => none
    | number => pure (number, rest)

def number? : Text → Option (Json × Text)
  | '-' :: s => unsigned? true s
  | s => unsigned? false s

mutual

def value? : Nat → Text → Option (Json × Text)
  | 0, _ => none
  | fuel + 1, s =>
    match skipBlanks s with
    | [] => none
    | '"' :: s => (string? ('"' :: s)).map fun (text, rest) => (.string text, rest)
    | '[' :: s =>
      match skipBlanks s with
      | ']' :: rest => some (.array [], rest)
      | s => do
        let (item, rest) ← value? fuel s
        let (items, rest) ← items? fuel rest
        pure (.array (item :: items), rest)
    | '{' :: s =>
      match skipBlanks s with
      | '}' :: rest => some (.object [], rest)
      | s => do
        let (first, rest) ← namedValue? fuel s
        let (members, rest) ← members? fuel rest
        pure (.object (first :: members), rest)
    | 't' :: s => (Text.after? "rue".toList s).map (.bool true, ·)
    | 'f' :: s => (Text.after? "alse".toList s).map (.bool false, ·)
    | 'n' :: s => (Text.after? "ull".toList s).map (.null, ·)
    | s => number? s

def items? : Nat → Text → Option (List Json × Text)
  | 0, _ => none
  | fuel + 1, s =>
    match skipBlanks s with
    | ']' :: rest => some ([], rest)
    | ',' :: s => do
      let (item, rest) ← value? fuel s
      let (items, rest) ← items? fuel rest
      pure (item :: items, rest)
    | _ => none

def namedValue? : Nat → Text → Option ((Text × Json) × Text)
  | 0, _ => none
  | fuel + 1, s => do
    let (name, rest) ← string? (skipBlanks s)
    match skipBlanks rest with
    | ':' :: rest =>
      let (value, rest) ← value? fuel rest
      pure ((name, value), rest)
    | _ => none

def members? : Nat → Text → Option (List (Text × Json) × Text)
  | 0, _ => none
  | fuel + 1, s =>
    match skipBlanks s with
    | '}' :: rest => some ([], rest)
    | ',' :: s => do
      let (first, rest) ← namedValue? fuel s
      let (members, rest) ← members? fuel rest
      pure (first :: members, rest)
    | _ => none

end

-- Reads a document: one value with nothing but blanks around it.
def parse? (s : Text) : Option Json :=
  match value? (2 * s.length + 1) s with
  | some (value, rest) => if skipBlanks rest = [] then some value else none
  | none => none

end OrderOfGrowth.Json
