import OrderOfGrowth.Number.Binary64

/-!
Logarithms to the base two in decimals: the quotient of two natural logarithms, each a floating point
number. The natural logarithm of a number is summed up in units far smaller than a floating point number
tells apart, and rounded once.
-/

set_option autoImplicit false

namespace OrderOfGrowth.Number

def fixedPoint (places units : Nat) : Text :=
  Text.decimal (units / Nat.pow 10 places) ++ '.' ::
    Text.padLeft '0' places (Text.decimal (units % Nat.pow 10 places))

-- How many units make one.
def logUnits : Nat :=
  Nat.pow 2 128

-- The sum of `power / odd` and what follows it, where each power is the one before it times the square
-- of a fraction.
def oddPowers (numerator denominator : Nat) : Nat → Nat → Nat → Nat
  | 0, _, _ => 0
  | fuel + 1, power, odd =>
    power / odd +
      oddPowers numerator denominator fuel (power * Nat.pow numerator 2 / Nat.pow denominator 2) (odd + 2)

-- The logarithm of `(denominator + numerator) / (denominator - numerator)` in units. The fraction is at
-- most a third, so 48 powers of it are enough.
def ratioLog (numerator denominator : Nat) : Nat :=
  2 * oddPowers numerator denominator 48 (logUnits * numerator / denominator) 1

-- The logarithm of `mantissa * 2 ^ exponent` in units, for a mantissa of 53 bits: without powers of two the
-- number is from one to below two.
def lnUnits (mantissa : Nat) (exponent : Int) : Nat :=
  (exponent + 52).toNat * ratioLog 1 3 +
    ratioLog (mantissa - Binary64.mantissaBound / 2) (mantissa + Binary64.mantissaBound / 2)

namespace Binary64

-- The natural logarithm of a whole number, which is itself rounded first.
def ln (a : Nat) : Binary64 :=
  if a = 0 then .infinite true
  else
    match ofFraction false a 1 with
    | .finite _ m e => ofFraction false (lnUnits m e) logUnits
    | x => x

-- A quotient by a finite number other than zero.
def quotient : Binary64 → Binary64 → Binary64
  | .finite negative m p, .finite other n q =>
    let fraction := scaled 2 m n (p - q)
    ofFraction (negative != other) fraction.1 fraction.2
  | .infinite negative, .finite other _ _ => .infinite (negative != other)
  | _, _ => .undefined

-- A number with so many places behind the point, rounded.
def fixedText (places : Nat) : Binary64 → Text
  | .undefined => "NaN".toList
  | .infinite negative => signText negative ++ "inf".toList
  | .finite negative m e =>
    let fraction := scaled 2 (m * Nat.pow 10 places) 1 e
    signText negative ++ fixedPoint places (roundToEven fraction.1 fraction.2)

end Binary64

def logText (places a : Nat) : Text :=
  (Binary64.quotient (Binary64.ln a) (Binary64.ln 2)).fixedText places

end OrderOfGrowth.Number
