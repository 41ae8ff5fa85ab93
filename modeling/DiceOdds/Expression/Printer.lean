import DiceOdds.Expression.Interpretation

/-!
# Printing expressions

The canonical text of an expression has dice as they were written, one space on
either side of every operator, and parentheses only for groups.  The outline
also shows how the chains are grouped and which dice a lexeme stands for.
-/

namespace DiceOdds

def Operator.join (operator : Operator) (lhs rhs : String) : String :=
  lhs ++ " " ++ operator.text ++ " " ++ rhs

def parenthesize (text : String) : String :=
  "(" ++ text ++ ")"

/-- The interpretation of an expression as its canonical text. -/
def printing : Interpretation Id String where
  constant value := toString value.toInt
  dice _ lexeme := lexeme
  group := parenthesize
  combine lhs operator rhs := operator.join lhs rhs

def Expression.text (expression : Expression) : String :=
  (expression.interpret printing).run

def Term.text (term : Term) : String :=
  (term.interpret printing).run

def Atom.text (atom : Atom) : String :=
  (atom.interpret printing).run

mutual

def Expression.outline : Expression → String
  | .term single => "[" ++ single.outline ++ "]"
  | .combine lhs operator rhs =>
      operator.join lhs.outline ("[" ++ rhs.outline ++ "]")

def Term.outline : Term → String
  | .atom single => single.outline
  | .combine lhs operator rhs => operator.join lhs.outline rhs.outline

/-- An atom; dice are shown as they are and as they were written. -/
def Atom.outline : Atom → String
  | .constant value => toString value.toInt
  | .dice dice lexeme => "\x7b" ++ dice.text ++ "|" ++ lexeme ++ "\x7d"
  | .group inner => parenthesize inner.outline

end

/-- The canonical texts of the terms of an expression, with the operators
between them. -/
def Expression.parts (expression : Expression) : List String :=
  expression.first.text ::
    expression.rest.flatMap fun link => [link.1.text, link.2.text]

end DiceOdds
