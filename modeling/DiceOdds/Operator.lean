import DiceOdds.EvalFault
import DiceOdds.Power

/-!
# Operators

The four arithmetic operators on signed 64-bit words.  A result that is not
representable is refused instead of being wrapped around, and a quotient is
truncated toward zero.
-/

namespace DiceOdds

/-- A binary arithmetic operator. -/
inductive Operator where
  | add
  | sub
  | mul
  | div
  deriving DecidableEq, Repr

def Operator.symbol : Operator → Char
  | .add => '+'
  | .sub => '-'
  | .mul => '*'
  | .div => '/'

def Operator.text (operator : Operator) : String :=
  operator.symbol.toString

def Operator.exact : Operator → Int → Int → Int
  | .add, lhs, rhs => lhs + rhs
  | .sub, lhs, rhs => lhs - rhs
  | .mul, lhs, rhs => lhs * rhs
  | .div, lhs, rhs => lhs.tdiv rhs

def isWord (value : Int) : Prop :=
  -2 ^ 63 ≤ value ∧ value < 2 ^ 63

instance (value : Int) : Decidable (isWord value) := by
  unfold isWord
  infer_instance

def toWord (value : Int) : Except EvalFault Int64 :=
  if isWord value then .ok (Int64.ofInt value) else .error .overflow

/-- Applies an operator.  Dividing by zero is noticed before anything else. -/
def Operator.apply (operator : Operator) (lhs rhs : Int64) :
    Except EvalFault Int64 :=
  if operator = .div ∧ rhs = 0 then
    .error .divisionByZero
  else
    toWord (operator.exact lhs.toInt rhs.toInt)

end DiceOdds
