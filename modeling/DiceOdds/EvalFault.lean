import DiceOdds.Dice
import DiceOdds.Text.Quoted

/-!
# Evaluation faults

The causes for which a readable expression has no value or no exact
distribution, and the sentence that reports each of them.
-/

namespace DiceOdds

/-- A state of affairs that sound dice and sound tables exclude. -/
inductive Breach where
  | negativeFrequency
  | unbalancedMiddle
  | noOutcomes
  | noPermutations
  | facelessDie
  deriving DecidableEq, Repr

def Breach.message : Breach → String
  | .negativeFrequency => "dice frequency came out negative"
  | .unbalancedMiddle =>
      "middle-of-three frequencies must sum to the cube of the faces"
  | .noOutcomes => "distribution has no outcomes"
  | .noPermutations => "distribution has no permutations"
  | .facelessDie => "die without faces"

/-- Why an expression cannot be evaluated. -/
inductive EvalFault where
  | divisionByZero
  | overflow
  | invalidDice (dice : Dice) (defect : Dice.Defect)
  | tooManyRolls
  | tooManyCombinations (limit : Nat)
  | tooDeep (depth limit : Nat)
  | breach (cause : Breach)
  deriving DecidableEq, Repr

def EvalFault.message : EvalFault → String
  | .divisionByZero => "cannot divide by zero"
  | .overflow => "arithmetic overflow"
  | .invalidDice dice defect =>
      "invalid dice " ++ Text.quote dice.text ++ ": " ++ defect.message
  | .tooManyRolls => "too many dice rolled"
  | .tooManyCombinations limit =>
      "too many combinations to enumerate (limit is " ++ toString limit ++ ")"
  | .tooDeep depth limit =>
      "expression is nested " ++ toString depth ++ " levels deep (limit is " ++
        toString limit ++ ")"
  | .breach cause => "internal invariant violated: " ++ cause.message

def Dice.validate (dice : Dice) : Except EvalFault Unit :=
  match dice.defect? with
  | none => .ok ()
  | some defect => .error (.invalidDice dice defect)

end DiceOdds
