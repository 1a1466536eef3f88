import OrderOfGrowth.Text.Basic

/-!
Floating point numbers of 64 bits, as far as they are read from decimals and written again. A
finite number is `mantissa * 2 ^ exponent` with at most 53 bits; the fraction nearest to a value
is found in whole numbers, and ties go to the even mantissa. `shortest` gives the fewest digits
that read back.
-/

set_option autoImplicit false

namespace OrderOfGrowth.Number

inductive Binary64 where
  | finite (negative : Bool) (mantissa : Nat) (exponent : Int)
  | infinite (negative : Bool)
  | undefined
  deriving DecidableEq, Repr

def scaled (base numerator denominator : Nat) (exponent : Int) : Nat × Nat :=
  if exponent < 0 then (numerator, denominator * Nat.pow base exponent.natAbs)
  else (numerator * Nat.pow base exponent.natAbs, denominator)

-- The whole number nearest to a fraction; of two that are equally near, the even one.
def roundToEven (numerator denominator : Nat) : Nat :=
  let quotient := numerator / denominator
  let rest := numerator % denominator
  if 2 * rest < denominator then quotient
  else if denominator < 2 * rest then quotient + 1
  else quotient + quotient % 2

def floorLog (numerator denominator : Nat) : Int :=
  let guess : Int := (Nat.log2 numerator : Int) - (Nat.log2 denominator : Int)
  let power := scaled 2 1 1 guess
  if power.1 * denominator ≤ numerator * power.2 then guess else guess - 1

namespace Binary64

def mantissaBound : Nat :=
  9007199254740992

def ofFraction (negative : Bool) (numerator denominator : Nat) : Binary64 :=
  if numerator = 0 then .finite negative 0 0
  else
    let exponent := max (floorLog numerator denominator - 52) (-1074)
    let fraction := scaled 2 numerator denominator (-exponent)
    let mantissa := roundToEven fraction.1 fraction.2
    if 971 < exponent ∨ (exponent = 971 ∧ mantissaBound ≤ mantissa) then .infinite negative
    else if mantissa = mantissaBound then .finite negative (mantissaBound / 2) (exponent + 1)
    else .finite negative mantissa exponent

-- The number nearest to `digits * 10 ^ exponent`. Beyond the range of all numbers the power is
-- not computed: the digits decide whether there is anything to scale.
def ofDecimal (negative : Bool) (digits : Nat) (exponent : Int) : Binary64 :=
  let size : Int := (Text.decimal digits).length
  if digits = 0 ∨ size + exponent < -400 then .finite negative 0 0
  else if 400 < size + exponent then .infinite negative
  else
    let fraction := scaled 10 digits 1 exponent
    ofFraction negative fraction.1 fraction.2

-- Multiplies by a power of ten, or divides by it, and rounds once. The power, of at most 308, is
-- itself rounded first.
def scaleOnce (x : Binary64) (exponent : Int) : Binary64 :=
  match x, ofDecimal false 1 exponent.natAbs with
  | .finite negative m p, .finite _ n q =>
    if exponent < 0 then
      let fraction := scaled 2 m n (p - q)
      ofFraction negative fraction.1 fraction.2
    else
      let fraction := scaled 2 (m * n) 1 (p + q)
      ofFraction negative fraction.1 fraction.2
  | x, _ => x

-- Whole digits of at most 64 bits, rounded and then scaled by a power of ten. Two divisions by
-- the largest power of ten leave nothing of them.
def ofScaledDigits (negative : Bool) (digits : Nat) (exponent : Int) : Binary64 :=
  let x := ofFraction negative digits 1
  if digits = 0 then x
  else if 308 < exponent then .infinite negative
  else if exponent < -308 then scaleOnce (scaleOnce x (-308)) (max (exponent + 308) (-308))
  else scaleOnce x exponent

def leadingPower (numerator denominator : Nat) : Int :=
  let guess : Int :=
    ((Text.decimal numerator).length : Int) - ((Text.decimal denominator).length : Int)
  let power := scaled 10 1 1 guess
  if power.1 * denominator ≤ numerator * power.2 then guess else guess - 1

-- Of the two neighbours of a positive fraction on the grid of multiples of `10 ^ power`, the
-- nearer one that reads back.
def onGrid? (target : Binary64) (numerator denominator : Nat) (power : Int) : Option Nat :=
  let fraction := scaled 10 numerator denominator (-power)
  let low := fraction.1 / fraction.2
  let near := roundToEven fraction.1 fraction.2
  let far := if near = low then low + 1 else low
  [near, far].find? fun digits => ofDecimal false digits power == target

def searchGrid (target : Binary64) (numerator denominator : Nat) (lead : Int) :
    Nat → Nat → Nat × Int
  | 0, _ => (0, 0)
  | fuel + 1, count =>
    let power := lead - count
    match onGrid? target numerator denominator power with
    | some digits => (digits, power)
    | none => searchGrid target numerator denominator lead fuel (count + 1)

-- The fewest decimal digits that read back as the positive number `mantissa * 2 ^ exponent`, and
-- the power of ten of the last one.
def shortest (mantissa : Nat) (exponent : Int) : Nat × Int :=
  let fraction := scaled 2 mantissa 1 exponent
  let found :=
    searchGrid (ofFraction false fraction.1 fraction.2) fraction.1 fraction.2
      (leadingPower fraction.1 fraction.2) 18 0
  if found.1 % 10 = 0 then (found.1 / 10, found.2 + 1) else found

def positional (digits : Nat) (power : Int) : Text :=
  let written := Text.decimal digits
  if 0 ≤ power then written ++ List.replicate power.natAbs '0'
  else
    let padded := Text.padLeft '0' (power.natAbs + 1) written
    let whole := padded.length - power.natAbs
    padded.take whole ++ '.' :: padded.drop whole

def signText (negative : Bool) : Text :=
  if negative then ['-'] else []

def plainText : Binary64 → Text
  | .undefined => "NaN".toList
  | .infinite negative => signText negative ++ "inf".toList
  | .finite negative m e =>
    signText negative ++
      if m = 0 then ['0']
      else
        let found := shortest m e
        positional found.1 found.2

-- A number with a point or an exponent: positional from `10 ^ -5` to below `10 ^ 16`, else with
-- the point after the first digit and an exponent of a sign and at least two digits.
def pointText : Binary64 → Text
  | .undefined => "NaN".toList
  | .infinite negative => signText negative ++ "inf".toList
  | .finite negative m e =>
    signText negative ++
      if m = 0 then "0.0".toList
      else
        let found := shortest m e
        let written := Text.decimal found.1
        let lead : Int := found.2 + written.length - 1
        if -5 ≤ lead ∧ lead < 16 then
          if found.2 < 0 then positional found.1 found.2
          else positional found.1 found.2 ++ ".0".toList
        else
          let fraction := if written.length = 1 then [] else '.' :: written.drop 1
          let size := Text.padLeft '0' 2 (Text.decimal lead.natAbs)
          written.take 1 ++ fraction ++ 'e' :: (if lead < 0 then '-' else '+') :: size

end Binary64

end OrderOfGrowth.Number
