import DiceOdds.Power

/-!
# Decimal numerals

A bounded reader of unsigned decimal numerals.  One leading plus sign is
allowed, every other character must be an ASCII digit, and the characters are
judged from left to right, so that the first fault is the one reported.  At one
and the same character a missing digit comes before a value that has grown past
the bound.
-/

namespace DiceOdds

/-- Why a text is no numeral below a given bound. -/
inductive Numeral.Fault where
  | empty
  | invalidDigit
  | tooLarge
  deriving DecidableEq, Repr

def Numeral.Fault.message : Numeral.Fault → String
  | .empty => "cannot parse integer from empty string"
  | .invalidDigit => "invalid digit found in string"
  | .tooLarge => "number too large to fit in target type"

def Numeral.digit? (character : Char) : Option Nat :=
  if '0' ≤ character ∧ character ≤ '9' then
    some (character.toNat - '0'.toNat)
  else
    none

/-- Appends one digit to the value read so far, refusing to pass the bound. -/
def Numeral.extend (maximum value : Nat) (character : Char) :
    Except Numeral.Fault Nat :=
  match Numeral.digit? character with
  | none => .error .invalidDigit
  | some digit =>
      if 10 * value + digit ≤ maximum then
        .ok (10 * value + digit)
      else
        .error .tooLarge

/-- Removes the plus sign of a numeral that has something after the sign. -/
def Numeral.dropSign : List Char → List Char
  | '+' :: character :: rest => character :: rest
  | text => text

def Numeral.read (maximum : Nat) (text : List Char) : Except Numeral.Fault Nat :=
  if text.isEmpty then
    .error .empty
  else
    (Numeral.dropSign text).foldlM (Numeral.extend maximum) 0

/-- Reads a count: a numeral that fits an unsigned 64-bit word. -/
def Numeral.readCount (text : List Char) : Except Numeral.Fault UInt64 :=
  (Numeral.read (2 ^ 64 - 1) text).map UInt64.ofNat

/-- Reads a constant: a numeral that fits a signed 64-bit word. -/
def Numeral.readConstant (text : List Char) : Except Numeral.Fault Int64 :=
  (Numeral.read (2 ^ 63 - 1) text).map Int64.ofNat

def Numeral.value (digits : List Char) : Nat :=
  digits.foldl (fun value character => 10 * value + (Numeral.digit? character).getD 0) 0

end DiceOdds
