import DiceOdds.Expression.Printer

/-!
# Evaluation order

The steps in which an expression is evaluated: one for each leaf and one for
each operator, in the order in which they are taken.  Steps are numbered from
one, and a step that joins two values names them by the steps they came from.
-/

namespace DiceOdds

/-- One step of an evaluation. -/
inductive Step where
  | constant (value : Int64)
  | dice (dice : Dice)
  | combine (lhs : Nat) (operator : Operator) (rhs : Nat)
  deriving DecidableEq, Repr

def Step.text : Step → String
  | .constant value => "const " ++ toString value.toInt
  | .dice thrown => "dice " ++ thrown.text
  | .combine lhs operator rhs =>
      operator.join ("#" ++ toString lhs) ("#" ++ toString rhs)

def Step.take (step : Step) : StateM (List Step) Nat := fun steps =>
  (steps.length + 1, steps ++ [step])

/-- The interpretation of an expression as the steps of its evaluation. -/
def tracing : Interpretation (StateM (List Step)) Nat where
  constant value := (Step.constant value).take
  dice dice _ := (Step.dice dice).take
  group := pure
  combine lhs operator rhs := (Step.combine lhs operator rhs).take

def Expression.steps (expression : Expression) : List Step :=
  ((expression.interpret tracing).run []).2

def Term.steps (term : Term) : List Step :=
  ((term.interpret tracing).run []).2

def Atom.steps (atom : Atom) : List Step :=
  ((atom.interpret tracing).run []).2

end DiceOdds
