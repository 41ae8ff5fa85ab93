import DiceOdds.Expression.ReadFault

/-!
# Faults

Everything that can go wrong between the text of an expression and its value.
-/

namespace DiceOdds

/-- Why a text has no value. -/
inductive Fault where
  | read (fault : ReadFault)
  | evaluation (fault : EvalFault)
  deriving DecidableEq, Repr

def Fault.message : Fault → String
  | .read fault => fault.message
  | .evaluation fault => fault.message

end DiceOdds
