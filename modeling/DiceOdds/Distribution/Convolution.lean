import DiceOdds.Distribution
import DiceOdds.Limits
import DiceOdds.Operator

/-!
# Convolution

Joining two independent distributions with an operator: every outcome of the
left one meets every outcome of the right one, in ascending order of the left
and then of the right outcome, and the ways of the pairs that give one and the
same result are added up.  No pair is passed over, so the first pair without a
result is the fault of the whole.
-/

namespace DiceOdds

def Distribution.joinRow (operator : Operator) (left : Int64 × Nat)
    (rights : List (Int64 × Nat)) (joined : Distribution) :
    Except EvalFault Distribution :=
  rights.foldlM
    (fun joined right => do
      let outcome ← operator.apply left.1 right.1
      return joined.add outcome (left.2 * right.2))
    joined

/-- Joins two distributions; `cap` bounds the number of pairs. -/
def Distribution.convolve (cap : Cap) (operator : Operator)
    (lhs rhs : Distribution) : Except EvalFault Distribution := do
  cap.check (lhs.size * rhs.size) .tooManyCombinations
  let rights := rhs.entries
  lhs.entries.foldlM
    (fun joined left => Distribution.joinRow operator left rights joined) .empty

end DiceOdds
