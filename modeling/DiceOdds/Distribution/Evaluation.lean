import DiceOdds.Distribution.Convolution
import DiceOdds.Distribution.Fudge
import DiceOdds.Expression.Interpretation
import DiceOdds.Expression.Reader
import DiceOdds.Fault

/-!
# Distributions of expressions

The exact distribution of dice and of whole expressions.  Limits are judged
before the work they bound is done: the nesting of the whole expression first,
then the work on each throw of dice, then the number of pairs at each operator.
-/

namespace DiceOdds

def Dice.soundDistribution : Dice → Except EvalFault Distribution
  | .sum count (.numbered sides) => Distribution.sumOfDice count sides
  | .sum count .fudge => Distribution.sumOfFudge count
  | .middle (.numbered sides) => Distribution.middleOfDice sides
  | .middle .fudge => Distribution.middleOfFudge

/-- The distribution of dice; `cap` bounds the work on them. -/
def Dice.distribution (cap : Cap) (dice : Dice) : Except EvalFault Distribution := do
  dice.validate
  cap.check dice.work .tooManyCombinations
  dice.soundDistribution

/-- The interpretation of an expression as its distribution. -/
def exactOdds (cap : Cap) : Interpretation (Except EvalFault) Distribution where
  constant value := .ok (.singleton value)
  dice dice _ := dice.distribution cap
  group := .ok
  combine lhs operator rhs := Distribution.convolve cap operator lhs rhs

def Expression.distribution (limits : Limits) (expression : Expression) :
    Except EvalFault Distribution := do
  limits.maxDepth.check expression.depth (.tooDeep expression.depth)
  expression.interpret (exactOdds limits.maxCombinations)

def distributionOf (text : String) : Except Fault Distribution := do
  let expression ← (Expression.read text).mapError .read
  (expression.distribution .standard).mapError .evaluation

end DiceOdds
