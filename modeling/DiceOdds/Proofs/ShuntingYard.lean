import DiceOdds.Proofs.PrintRead

/-!
# The shunting yard

Words are put into postfix order by a machine that knows no trees.  Operands go
straight to its output, and an operator is held back until its second operand is
complete, which is when an operator that binds no tighter, a closing parenthesis
or the end comes.  The machine is the reference for how words are grouped: the
words that derive a tree come out in the postfix order of the tree.
-/

namespace DiceOdds

/-- An item of a sequence in postfix order. -/
inductive Postfix where
  | constant (value : Int64)
  | dice (dice : Dice) (lexeme : String)
  | combine (operator : Operator)
  deriving DecidableEq, Repr

/-- How tightly an operator binds. -/
def Operator.strength : Operator → Nat
  | .add => 1
  | .sub => 1
  | .mul => 2
  | .div => 2

/-- What is held back: an operator, or a parenthesis not yet closed. -/
inductive Held where
  | operator (operator : Operator)
  | paren
  deriving DecidableEq, Repr

/-- The items put out so far, and what is held back, from the last to the first. -/
structure Yard where
  output : List Postfix
  held : List Held
  deriving DecidableEq, Repr

def Yard.empty : Yard :=
  { output := [], held := [] }

def Yard.emit (yard : Yard) (item : Postfix) : Yard :=
  { yard with output := yard.output ++ [item] }

/-- Puts out the operators held last, as long as they bind at least so tightly. -/
def Yard.releaseOnto (strength : Nat) (output : List Postfix) : List Held → Yard
  | .operator top :: held =>
      if strength ≤ top.strength then
        releaseOnto strength (output ++ [.combine top]) held
      else
        ⟨output, .operator top :: held⟩
  | held => ⟨output, held⟩

def Yard.release (strength : Nat) (yard : Yard) : Yard :=
  Yard.releaseOnto strength yard.output yard.held

/-- Holds an operator back.  What was held and binds at least as tightly goes
out first, so that operators of one strength associate to the left. -/
def Yard.hold (operator : Operator) (yard : Yard) : Yard :=
  let released := yard.release operator.strength
  { released with held := .operator operator :: released.held }

def Yard.close (yard : Yard) : Option Yard :=
  match yard.release 0 with
  | ⟨output, .paren :: held⟩ => some ⟨output, held⟩
  | _ => none

def Yard.step (yard : Yard) (word : Word) : Option Yard :=
  match word.1 with
  | .integer =>
      match Numeral.readConstant word.2.toList with
      | .ok value => some (yard.emit (.constant value))
      | .error _ => none
  | .dice =>
      match Dice.read word.2.toList with
      | .ok dice => some (yard.emit (.dice dice word.2))
      | .error _ => none
  | .openParen => some { yard with held := .paren :: yard.held }
  | .closeParen => yard.close
  | .plus => some (yard.hold .add)
  | .minus => some (yard.hold .sub)
  | .star => some (yard.hold .mul)
  | .slash => some (yard.hold .div)

def Yard.finish (yard : Yard) : Option (List Postfix) :=
  match yard.release 0 with
  | ⟨output, []⟩ => some output
  | _ => none

/-- The words in postfix order. -/
def Word.shunt (words : List Word) : Option (List Postfix) := do
  let yard ← words.foldlM Yard.step Yard.empty
  yard.finish

mutual

/-- The leaves and operators of an expression, each operator after its operands. -/
def Expression.postfixOrder : Expression → List Postfix
  | .term single => single.postfixOrder
  | .combine lhs operator rhs =>
      lhs.postfixOrder ++ rhs.postfixOrder ++ [.combine operator]

def Term.postfixOrder : Term → List Postfix
  | .atom single => single.postfixOrder
  | .combine lhs operator rhs =>
      lhs.postfixOrder ++ rhs.postfixOrder ++ [.combine operator]

def Atom.postfixOrder : Atom → List Postfix
  | .constant value => [.constant value]
  | .dice dice lexeme => [.dice dice lexeme]
  | .group inner => inner.postfixOrder

end

/-- Whatever operator is held last binds less tightly. -/
inductive Held.Below (strength : Nat) : List Held → Prop where
  | nil : Held.Below strength []
  | paren {held : List Held} : Held.Below strength (.paren :: held)
  | operator {top : Operator} {held : List Held} :
      top.strength < strength → Held.Below strength (.operator top :: held)

theorem Held.Below.mono {weak strong : Nat} {held : List Held}
    (below : Held.Below weak held) (weaker : weak ≤ strong) :
    Held.Below strong held := by
  cases below with
  | nil => exact .nil
  | paren => exact .paren
  | operator less => exact .operator (Nat.lt_of_lt_of_le less weaker)

theorem Yard.release_of_below {strength : Nat} {held : List Held}
    (below : Held.Below strength held) (output : List Postfix) :
    (Yard.mk output held).release strength = ⟨output, held⟩ := by
  cases below with
  | nil => rfl
  | paren => rfl
  | operator less => exact if_neg (Nat.not_le_of_lt less)

theorem Yard.release_operator {strength : Nat} {top : Operator}
    (tight : strength ≤ top.strength) (output : List Postfix) (held : List Held) :
    (Yard.mk output (.operator top :: held)).release strength =
      (Yard.mk (output ++ [.combine top]) held).release strength :=
  if_pos tight

/-- To release in two rounds is to release in one, if the second goes further. -/
theorem Yard.release_release {weak strong : Nat} (weaker : weak ≤ strong)
    (yard : Yard) : (yard.release strong).release weak = yard.release weak := by
  obtain ⟨output, held⟩ := yard
  induction held generalizing output with
  | nil => rfl
  | cons last held rest =>
      cases last with
      | paren => rfl
      | operator top =>
          by_cases tight : strong ≤ top.strength
          · rw [Yard.release_operator tight, rest,
              Yard.release_operator (Nat.le_trans weaker tight)]
          · -- Nothing goes out in the first round.
            have below : Held.Below strong (.operator top :: held) :=
              .operator (Nat.lt_of_not_le tight)
            rw [Yard.release_of_below below]

/-- When no more than the operator itself binds so tightly, it goes out alone. -/
theorem Yard.release_held {operator : Operator} {held : List Held}
    (below : Held.Below operator.strength held) (output : List Postfix) :
    (Yard.mk output (.operator operator :: held)).release operator.strength =
      ⟨output ++ [.combine operator], held⟩ := by
  rw [Yard.release_operator (Nat.le_refl _), Yard.release_of_below below]

theorem Yard.step_sign {sign : Word} {operator : Operator}
    (kind : sign.1 = operator.kind) (yard : Yard) :
    yard.step sign = some (yard.hold operator) := by
  obtain ⟨_, lexeme⟩ := sign
  subst kind
  cases operator <;> rfl

theorem Token.Kind.JoinsTerms.strength {kind : Token.Kind} {operator : Operator}
    (joins : kind.JoinsTerms operator) : operator.strength = 1 := by
  cases joins <;> rfl

theorem Token.Kind.JoinsAtoms.strength {kind : Token.Kind} {operator : Operator}
    (joins : kind.JoinsAtoms operator) : operator.strength = 2 := by
  cases joins <;> rfl

/-- The words lead the yard to put out the items, once the operators that bind so
tightly are released, and leave alone what was held before. -/
def Yard.Shunts (strength : Nat) (words : List Word) (items output : List Postfix)
    (held : List Held) : Prop :=
  ∃ yard, words.foldlM Yard.step ⟨output, held⟩ = some yard ∧
    yard.release strength = ⟨output ++ items, held⟩

/-- A chain grows by an operator and an operand made with tighter ones. -/
theorem Yard.Shunts.join {strength : Nat} {left right : List Word} {sign : Word}
    {lhs rhs output : List Postfix} {held : List Held} {operator : Operator}
    (first : Yard.Shunts strength left lhs output held)
    (kind : sign.1 = operator.kind) (strong : operator.strength = strength)
    (below : Held.Below strength held)
    (second : Held.Below (strength + 1) (.operator operator :: held) →
      Yard.Shunts (strength + 1) right rhs (output ++ lhs) (.operator operator :: held)) :
    Yard.Shunts strength (left ++ sign :: right) (lhs ++ rhs ++ [.combine operator])
      output held := by
  subst strong
  obtain ⟨before, reached, released⟩ := first
  obtain ⟨behind, reachedBehind, releasedBehind⟩ :=
    second (.operator (Nat.lt_succ_self _))
  have holds : before.hold operator = ⟨output ++ lhs, .operator operator :: held⟩ := by
    simp only [Yard.hold, released]
  refine ⟨behind, ?_, ?_⟩
  · rw [List.foldlM_append, reached, Option.bind_eq_bind, Option.bind_some,
      List.foldlM_cons, Yard.step_sign kind, holds, Option.bind_eq_bind,
      Option.bind_some, reachedBehind]
  · -- The operands made with tighter operators go out first, then the operator itself.
    rw [← Yard.release_release (Nat.le_succ _), releasedBehind, Yard.release_held below]
    simp only [List.append_assoc]

mutual

/-- An expression comes out once the operators between its terms are released. -/
theorem Expression.Derives.shunts {words : List Word} {expression : Expression}
    (derives : Expression.Derives words expression) (spelled : Word.AllSpelled words)
    {held : List Held} (below : Held.Below 1 held) (output : List Postfix) :
    Yard.Shunts 1 words expression.postfixOrder output held := by
  cases derives with
  | term single =>
      have weaker : 1 ≤ 2 := by decide
      obtain ⟨yard, reached, released⟩ := single.shunts spelled (below.mono weaker) output
      refine ⟨yard, reached, ?_⟩
      rw [← Yard.release_release weaker, released, Yard.release_of_below below]
      rfl
  | combine left joins right =>
      exact (left.shunts spelled.left below output).join joins.kind_eq joins.strength below
        fun within => right.shunts spelled.right within _

/-- A term comes out once the operators between its atoms are released. -/
theorem Term.Derives.shunts {words : List Word} {term : Term}
    (derives : Term.Derives words term) (spelled : Word.AllSpelled words)
    {held : List Held} (below : Held.Below 2 held) (output : List Postfix) :
    Yard.Shunts 2 words term.postfixOrder output held := by
  cases derives with
  | atom single =>
      exact ⟨_, single.shunts spelled held output, Yard.release_of_below below _⟩
  | combine left joins right =>
      exact (left.shunts spelled.left below output).join joins.kind_eq joins.strength below
        fun within => ⟨_, right.shunts spelled.right _ _, Yard.release_of_below within _⟩

/-- An atom comes out at once. -/
theorem Atom.Derives.shunts {words : List Word} {atom : Atom}
    (derives : Atom.Derives words atom) (spelled : Word.AllSpelled words)
    (held : List Held) (output : List Postfix) :
    words.foldlM Yard.step ⟨output, held⟩ = some ⟨output ++ atom.postfixOrder, held⟩ := by
  cases derives with
  | @constant lexeme small =>
      have digits : Token.IsDigits lexeme.toList := spelled _ (List.mem_singleton_self _)
      have read := (Numeral.readConstant_eq_ok_iff digits).mpr ⟨small, rfl⟩
      simp only [List.foldlM_cons, List.foldlM_nil, Yard.step, read]
      rfl
  | dice read =>
      simp only [List.foldlM_cons, List.foldlM_nil, Yard.step, read]
      rfl
  | @group words opening closing inner derives =>
      obtain ⟨yard, reached, released⟩ :=
        derives.shunts spelled.inner (@Held.Below.paren 1 held) output
      have closes : yard.step (.closeParen, closing) =
          some ⟨output ++ inner.postfixOrder, held⟩ := by
        simp only [Yard.step, Yard.close]
        rw [← Yard.release_release (Nat.zero_le 1), released]
        rfl
      have opens : Yard.step ⟨output, held⟩ (.openParen, opening) =
          some ⟨output, .paren :: held⟩ := rfl
      rw [List.cons_append, List.foldlM_cons, opens, Option.bind_eq_bind,
        Option.bind_some, List.foldlM_append, reached, Option.bind_eq_bind,
        Option.bind_some, List.foldlM_cons, closes]
      rfl

end

/-- The words that derive an expression come out of the yard in its postfix order. -/
theorem Expression.Derives.shunt_eq {words : List Word} {expression : Expression}
    (derives : Expression.Derives words expression) (spelled : Word.AllSpelled words) :
    Word.shunt words = some expression.postfixOrder := by
  obtain ⟨yard, reached, released⟩ := derives.shunts spelled .nil []
  have finishes : yard.finish = some expression.postfixOrder := by
    rw [Yard.finish, ← Yard.release_release (Nat.zero_le 1), released]
    rfl
  rw [Word.shunt, Yard.empty, reached, Option.bind_eq_bind, Option.bind_some, finishes]

example :
    Word.shunt [(.integer, "9"), (.minus, "-"), (.integer, "2"), (.star, "*"),
      (.integer, "3"), (.minus, "-"), (.integer, "1")] =
    some [.constant 9, .constant 2, .constant 3, .combine .mul, .combine .sub,
      .constant 1, .combine .sub] := by
  decide +kernel

end DiceOdds
