import DiceOdds.Expression.Interpretation
import DiceOdds.Proofs.DrawVectors

/-!
# Induction over what expressions stand for

Whatever is said of the computations that leaves stand for, and is kept by groups
and operators, holds of the computations that whole expressions stand for.  Two
interpretations are followed side by side, together with the dice they throw, so
that a computation can be compared with another one or with a plan of its dice.
-/

namespace DiceOdds

variable {m n : Type → Type} [Monad m] [Monad n] {α β : Type}
  {first : Interpretation m α} {second : Interpretation n β}

/-- A relation between what two interpretations make of the same dice that holds
for leaves and is kept by groups and operators. -/
structure Interpretation.Related (first : Interpretation m α)
    (second : Interpretation n β) (relation : List Dice → m α → n β → Prop) :
    Prop where
  constant : ∀ value, relation [] (first.constant value) (second.constant value)
  dice : ∀ dice lexeme,
    relation [dice] (first.dice dice lexeme) (second.dice dice lexeme)
  group : ∀ {throws : List Dice} {inner : m α} {other : n β},
    relation throws inner other →
      relation throws (inner >>= first.group) (other >>= second.group)
  combine : ∀ {leftThrows rightThrows : List Dice} {left right : m α}
    {otherLeft otherRight : n β} (operator : Operator),
    relation leftThrows left otherLeft → relation rightThrows right otherRight →
      relation (leftThrows ++ rightThrows)
        (do
          let lhs ← left
          let rhs ← right
          first.combine lhs operator rhs)
        (do
          let lhs ← otherLeft
          let rhs ← otherRight
          second.combine lhs operator rhs)

variable {relation : List Dice → m α → n β → Prop}

mutual

/-- What holds of leaves and is kept by groups and operators holds of every
expression. -/
theorem Expression.interpret_related (related : first.Related second relation)
    (expression : Expression) :
    relation expression.throws (expression.interpret first)
      (expression.interpret second) := by
  cases expression with
  | term single => exact single.interpret_related related
  | combine lhs operator rhs =>
      exact related.combine operator (lhs.interpret_related related)
        (rhs.interpret_related related)

theorem Term.interpret_related (related : first.Related second relation)
    (term : Term) :
    relation term.throws (term.interpret first) (term.interpret second) := by
  cases term with
  | atom single => exact single.interpret_related related
  | combine lhs operator rhs =>
      exact related.combine operator (lhs.interpret_related related)
        (rhs.interpret_related related)

theorem Atom.interpret_related (related : first.Related second relation)
    (atom : Atom) :
    relation atom.throws (atom.interpret first) (atom.interpret second) := by
  cases atom with
  | constant value => exact related.constant value
  | dice dice lexeme => exact related.dice dice lexeme
  | group inner => exact related.group (inner.interpret_related related)

end

end DiceOdds
