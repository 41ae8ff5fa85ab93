import DiceOdds.Expression.Interpretation
import DiceOdds.Roll.Throw

/-!
# Rolling expressions

One roll of an expression throws the dice in the order in which they stand in
it and computes with what they show.
-/

namespace DiceOdds

variable {σ : Type} [Roller σ]

def rolling (cap : Cap) : Interpretation (Throwing σ) Int64 where
  constant value := return value
  dice dice _ := dice.throwAll cap
  group value := return value
  combine lhs operator rhs := operator.apply lhs rhs

def Expression.rollOn (cap : Cap) (expression : Expression) (tray : Tray σ) :
    Except EvalFault Int64 × Tray σ :=
  (expression.interpret (rolling cap)).run tray

def Dice.rollOn (cap : Cap) (dice : Dice) (tray : Tray σ) :
    Except EvalFault Int64 × Tray σ :=
  (dice.throwAll cap).run tray

/-- Rolls an expression once; the roller is returned as the roll leaves it. -/
def Expression.roll (cap : Cap) (expression : Expression) (source : σ) :
    Except EvalFault Int64 × σ :=
  let (result, tray) := expression.rollOn cap (.fresh source)
  (result, tray.source)

end DiceOdds
