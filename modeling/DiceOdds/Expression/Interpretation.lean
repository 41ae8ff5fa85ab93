import DiceOdds.Expression

/-!
# Interpretations of expressions

Printing, rolling and computing odds read an expression in the same order: from
left to right, operands before the operator that joins them, and never grouped
in another way than the expression is.  They differ only in what a leaf stands
for and in how two values are joined, which is what an interpretation records.
-/

namespace DiceOdds

/-- What leaves and joints of an expression stand for, with effects in `m`. -/
structure Interpretation (m : Type → Type) (α : Type) where
  constant : Int64 → m α
  dice : Dice → String → m α
  group : α → m α
  combine : α → Operator → α → m α

variable {m : Type → Type} [Monad m] {α : Type}

mutual

def Expression.interpret (meaning : Interpretation m α) : Expression → m α
  | .term single => single.interpret meaning
  | .combine lhs operator rhs => do
      let left ← lhs.interpret meaning
      let right ← rhs.interpret meaning
      meaning.combine left operator right

def Term.interpret (meaning : Interpretation m α) : Term → m α
  | .atom single => single.interpret meaning
  | .combine lhs operator rhs => do
      let left ← lhs.interpret meaning
      let right ← rhs.interpret meaning
      meaning.combine left operator right

def Atom.interpret (meaning : Interpretation m α) : Atom → m α
  | .constant value => meaning.constant value
  | .dice dice lexeme => meaning.dice dice lexeme
  | .group inner => do
      let value ← inner.interpret meaning
      meaning.group value

end

end DiceOdds
