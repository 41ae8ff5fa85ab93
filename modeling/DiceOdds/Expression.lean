import DiceOdds.Operator

/-!
# Expressions

An expression is a chain of terms and a term a chain of atoms, each chain
grouped to the left.  An atom is an integer, dice, or an expression in
parentheses.  The tree keeps the text that dice were written as.
-/

namespace DiceOdds

mutual

/-- A chain of terms. -/
inductive Expression where
  | term (term : Term)
  | combine (lhs : Expression) (operator : Operator) (rhs : Term)
  deriving DecidableEq, Repr

/-- A chain of atoms. -/
inductive Term where
  | atom (atom : Atom)
  | combine (lhs : Term) (operator : Operator) (rhs : Atom)
  deriving DecidableEq, Repr

/-- An operand that needs no operator. -/
inductive Atom where
  | constant (value : Int64)
  | dice (dice : Dice) (lexeme : String)
  | group (inner : Expression)
  deriving DecidableEq, Repr

end

mutual

def Expression.depth : Expression → Nat
  | .term single => single.depth
  | .combine lhs _ rhs => max lhs.depth rhs.depth

def Term.depth : Term → Nat
  | .atom single => single.depth
  | .combine lhs _ rhs => max lhs.depth rhs.depth

def Atom.depth : Atom → Nat
  | .constant _ => 0
  | .dice _ _ => 0
  | .group inner => inner.depth + 1

end

def Atom.ofDice (dice : Dice) : Atom :=
  .dice dice dice.text

def Expression.ofAtom (atom : Atom) : Expression :=
  .term (.atom atom)

/-- A chain of terms from its first term and the terms that follow it. -/
def Expression.ofChain (first : Term) (rest : List (Operator × Term)) :
    Expression :=
  rest.foldl (fun lhs link => .combine lhs link.1 link.2) (.term first)

/-- A chain of atoms from its first atom and the atoms that follow it. -/
def Term.ofChain (first : Atom) (rest : List (Operator × Atom)) : Term :=
  rest.foldl (fun lhs link => .combine lhs link.1 link.2) (.atom first)

def Expression.first : Expression → Term
  | .term single => single
  | .combine lhs _ _ => lhs.first

/-- The terms after the first one, each with the operator before it. -/
def Expression.rest : Expression → List (Operator × Term)
  | .term _ => []
  | .combine lhs operator rhs => lhs.rest ++ [(operator, rhs)]

def Atom.wrap (inner : Expression) : Nat → Atom
  | 0 => .group inner
  | pairs + 1 => .group (.ofAtom (Atom.wrap inner pairs))

end DiceOdds
