import DiceOdds.Power

/-!
# Binary floating point

Non-negative numbers of the format binary64, rounded from exact quotients: 53
significant bits, no exponent below -1074, and a value halfway between two
neighbours goes to the even one.  The exponent has no upper end, because every
number rounded here is a share of a whole or that share in percent.
-/

namespace DiceOdds

/-- The number `significand * 2 ^ exponent`. -/
structure Binary64 where
  significand : Nat
  exponent : Int
  deriving DecidableEq, Repr

def Binary64.zero : Binary64 :=
  { significand := 0, exponent := -1074 }

/-- The integer nearest to a quotient; halfway between two it is the even one. -/
def roundQuotient (numerator denominator : Nat) : Nat :=
  let floor := numerator / denominator
  let remainder := numerator % denominator
  if 2 * remainder < denominator then floor
  else if denominator < 2 * remainder then floor + 1
  else if floor % 2 = 0 then floor
  else floor + 1

/-- The greatest power of two, as its exponent, that is not above a positive
quotient. -/
def floorLog2 (numerator denominator : Nat) : Int :=
  let guess : Int := (numerator.log2 : Int) - (denominator.log2 : Int)
  if denominator * Nat.pow 2 guess.toNat ≤ numerator * Nat.pow 2 (-guess).toNat then
    guess
  else
    guess - 1

/-- The exponent of the last place of a positive quotient: 52 places below its
first bit, but never below the least exponent of the format. -/
def Binary64.lastPlace (numerator denominator : Nat) : Int :=
  max (-1074) (floorLog2 numerator denominator - 52)

def Binary64.nearest (numerator denominator : Nat) : Binary64 :=
  if numerator = 0 then
    .zero
  else
    let exponent := Binary64.lastPlace numerator denominator
    let significand := roundQuotient (numerator * Nat.pow 2 (-exponent).toNat)
      (denominator * Nat.pow 2 exponent.toNat)
    if significand = 2 ^ 53 then
      { significand := 2 ^ 52, exponent := exponent + 1 }
    else
      { significand, exponent }

/-- The numerator of a number over the denominator of the same number. -/
def Binary64.numerator (number : Binary64) : Nat :=
  number.significand * Nat.pow 2 number.exponent.toNat

def Binary64.denominator (number : Binary64) : Nat :=
  Nat.pow 2 (-number.exponent).toNat

def Binary64.scale (number : Binary64) (factor : Nat) : Binary64 :=
  .nearest (number.numerator * factor) number.denominator

/-- The bit pattern of a number: eleven bits of biased exponent, then the
significand, of which a normal number leaves out the first bit. -/
def Binary64.bits (number : Binary64) : UInt64 :=
  if number.significand < 2 ^ 52 then
    UInt64.ofNat number.significand
  else
    UInt64.ofNat
      ((number.exponent + 1075).toNat * 2 ^ 52 + (number.significand - 2 ^ 52))

/-- A number with so many digits behind the point, from its exact value. -/
def Binary64.fixed (number : Binary64) (places : Nat) : String :=
  let units := roundQuotient (number.numerator * Nat.pow 10 places) number.denominator
  let fraction := toString (units % Nat.pow 10 places)
  toString (units / Nat.pow 10 places) ++ "." ++
    "".pushn '0' (places - fraction.length) ++ fraction

end DiceOdds
