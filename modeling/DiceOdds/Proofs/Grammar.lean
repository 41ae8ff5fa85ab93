import DiceOdds.Expression.Reader
import DiceOdds.Proofs.TokenSpelling

/-!
# The grammar of expressions

An expression is a chain of terms, a term a chain of atoms, and an atom a number,
dice or an expression in parentheses.  The grammar sees the kinds and the texts
of tokens but not where they stand.  It derives a tree from words without looking
ahead and without a bound on the nesting, which is counted on the words alone.
-/

namespace DiceOdds

/-- What the grammar sees of a token: its kind and its text. -/
abbrev Word := Token.Kind × String

/-- The word of a token. -/
def Token.word (token : Token) : Word :=
  (token.kind, token.lexeme)

/-- The kinds of signs between two terms. -/
inductive Token.Kind.JoinsTerms : Token.Kind → Operator → Prop where
  | plus : JoinsTerms .plus .add
  | minus : JoinsTerms .minus .sub

/-- The kinds of signs between two atoms. -/
inductive Token.Kind.JoinsAtoms : Token.Kind → Operator → Prop where
  | star : JoinsAtoms .star .mul
  | slash : JoinsAtoms .slash .div

mutual

/-- The words derive a chain of terms. -/
inductive Expression.Derives : List Word → Expression → Prop where
  | term {words : List Word} {single : Term} :
      Term.Derives words single → Expression.Derives words (.term single)
  | combine {left right : List Word} {sign : Word} {lhs : Expression}
      {operator : Operator} {rhs : Term} :
      Expression.Derives left lhs → sign.1.JoinsTerms operator →
      Term.Derives right rhs →
      Expression.Derives (left ++ sign :: right) (.combine lhs operator rhs)

/-- The words derive a chain of atoms. -/
inductive Term.Derives : List Word → Term → Prop where
  | atom {words : List Word} {single : Atom} :
      Atom.Derives words single → Term.Derives words (.atom single)
  | combine {left right : List Word} {sign : Word} {lhs : Term}
      {operator : Operator} {rhs : Atom} :
      Term.Derives left lhs → sign.1.JoinsAtoms operator →
      Atom.Derives right rhs →
      Term.Derives (left ++ sign :: right) (.combine lhs operator rhs)

/-- The words derive an atom. -/
inductive Atom.Derives : List Word → Atom → Prop where
  | constant {lexeme : String} :
      Numeral.value lexeme.toList < 2 ^ 63 →
      Atom.Derives [(.integer, lexeme)]
        (.constant (Int64.ofNat (Numeral.value lexeme.toList)))
  | dice {lexeme : String} {dice : Dice} :
      Dice.read lexeme.toList = .ok dice →
      Atom.Derives [(.dice, lexeme)] (.dice dice lexeme)
  | group {words : List Word} {opening closing : String} {inner : Expression} :
      Expression.Derives words inner →
      Atom.Derives ((.openParen, opening) :: words ++ [(.closeParen, closing)])
        (.group inner)

end

/-- How many parentheses are opened. -/
def Word.opened (words : List Word) : Nat :=
  words.countP fun word => word.1 = .openParen

/-- How many parentheses are closed. -/
def Word.closed (words : List Word) : Nat :=
  words.countP fun word => word.1 = .closeParen

/-- At no place more than so many parentheses are open. -/
def Word.NestedWithin (bound : Nat) (words : List Word) : Prop :=
  ∀ initial, initial <+: words → Word.opened initial ≤ Word.closed initial + bound

@[simp] theorem Word.opened_nil : Word.opened [] = 0 :=
  rfl

@[simp] theorem Word.closed_nil : Word.closed [] = 0 :=
  rfl

@[simp] theorem Word.opened_append (left right : List Word) :
    Word.opened (left ++ right) = Word.opened left + Word.opened right :=
  List.countP_append

@[simp] theorem Word.closed_append (left right : List Word) :
    Word.closed (left ++ right) = Word.closed left + Word.closed right :=
  List.countP_append

theorem Word.opened_cons (word : Word) (words : List Word) :
    Word.opened (word :: words) =
      Word.opened words + if word.1 = .openParen then 1 else 0 := by
  simp [Word.opened, List.countP_cons]

theorem Word.closed_cons (word : Word) (words : List Word) :
    Word.closed (word :: words) =
      Word.closed words + if word.1 = .closeParen then 1 else 0 := by
  simp [Word.closed, List.countP_cons]

@[simp] theorem Word.opened_openParen (opening : String) (words : List Word) :
    Word.opened ((.openParen, opening) :: words) = Word.opened words + 1 := by
  rw [Word.opened_cons, if_pos rfl]

@[simp] theorem Word.closed_openParen (opening : String) (words : List Word) :
    Word.closed ((.openParen, opening) :: words) = Word.closed words := by
  rw [Word.closed_cons, if_neg nofun, Nat.add_zero]

theorem Token.Kind.JoinsTerms.noParen {kind : Token.Kind} {operator : Operator}
    (joins : kind.JoinsTerms operator) : kind ≠ .openParen ∧ kind ≠ .closeParen := by
  cases joins <;> decide

theorem Token.Kind.JoinsAtoms.noParen {kind : Token.Kind} {operator : Operator}
    (joins : kind.JoinsAtoms operator) : kind ≠ .openParen ∧ kind ≠ .closeParen := by
  cases joins <;> decide

/-- As many parentheses are closed as are opened. -/
def Word.Balanced (words : List Word) : Prop :=
  Word.opened words = Word.closed words

theorem Word.Balanced.join {left right : List Word} {sign : Word}
    (leftBalanced : Word.Balanced left) (rightBalanced : Word.Balanced right)
    (noParen : sign.1 ≠ .openParen ∧ sign.1 ≠ .closeParen) :
    Word.Balanced (left ++ sign :: right) := by
  unfold Word.Balanced at *
  simp [Word.opened_cons, Word.closed_cons, noParen, leftBalanced, rightBalanced]

mutual

theorem Expression.Derives.balanced {words : List Word} {expression : Expression}
    (derives : Expression.Derives words expression) : Word.Balanced words := by
  cases derives with
  | term single => exact single.balanced
  | combine left joins right => exact left.balanced.join right.balanced joins.noParen

theorem Term.Derives.balanced {words : List Word} {term : Term}
    (derives : Term.Derives words term) : Word.Balanced words := by
  cases derives with
  | atom single => exact single.balanced
  | combine left joins right => exact left.balanced.join right.balanced joins.noParen

theorem Atom.Derives.balanced {words : List Word} {atom : Atom}
    (derives : Atom.Derives words atom) : Word.Balanced words := by
  cases derives with
  | constant _ => rfl
  | dice _ => rfl
  | group inner =>
      have balanced := inner.balanced
      unfold Word.Balanced at *
      simp [Word.opened_cons, Word.closed_cons, balanced]

end

/-- At some place so many parentheses are open. -/
def Word.Reaches (depth : Nat) (words : List Word) : Prop :=
  ∃ initial, initial <+: words ∧
    Word.opened initial = Word.closed initial + depth

theorem Word.Reaches.join {left right : List Word} {sign : Word}
    {leftDepth rightDepth : Nat} (leftReaches : Word.Reaches leftDepth left)
    (leftBalanced : Word.Balanced left)
    (noParen : sign.1 ≠ .openParen ∧ sign.1 ≠ .closeParen)
    (rightReaches : Word.Reaches rightDepth right) :
    Word.Reaches (max leftDepth rightDepth) (left ++ sign :: right) := by
  by_cases deeper : rightDepth ≤ leftDepth
  · rw [Nat.max_eq_left deeper]
    obtain ⟨initial, begins, opened⟩ := leftReaches
    exact ⟨initial, begins.trans (List.prefix_append _ _), opened⟩
  · rw [Nat.max_eq_right (by omega)]
    obtain ⟨initial, begins, opened⟩ := rightReaches
    refine ⟨left ++ sign :: initial, ?_, ?_⟩
    · exact (List.prefix_append_right_inj _).mpr ((List.prefix_cons_inj _).mpr begins)
    · unfold Word.Balanced at leftBalanced
      simp only [Word.opened_append, Word.closed_append, Word.opened_cons,
        Word.closed_cons, noParen, if_false]
      omega

mutual

/-- A derivation opens as many parentheses at once as its tree is deep. -/
theorem Expression.Derives.reaches {words : List Word} {expression : Expression}
    (derives : Expression.Derives words expression) :
    Word.Reaches expression.depth words := by
  cases derives with
  | term single => exact single.reaches
  | combine left joins right =>
      exact left.reaches.join left.balanced joins.noParen right.reaches

theorem Term.Derives.reaches {words : List Word} {term : Term}
    (derives : Term.Derives words term) : Word.Reaches term.depth words := by
  cases derives with
  | atom single => exact single.reaches
  | combine left joins right =>
      exact left.reaches.join left.balanced joins.noParen right.reaches

theorem Atom.Derives.reaches {words : List Word} {atom : Atom}
    (derives : Atom.Derives words atom) : Word.Reaches atom.depth words := by
  cases derives with
  | constant _ => exact ⟨[], List.nil_prefix, rfl⟩
  | dice _ => exact ⟨[], List.nil_prefix, rfl⟩
  | @group words opening closing inner derives =>
      obtain ⟨initial, begins, opened⟩ := derives.reaches
      refine ⟨(.openParen, opening) :: initial, ?_, ?_⟩
      · rw [List.cons_append, List.prefix_cons_inj]
        exact begins.trans (List.prefix_append _ _)
      · simp only [Word.opened_openParen, Word.closed_openParen, Atom.depth, opened]
        omega

end

theorem Expression.Derives.depth_le {words : List Word} {expression : Expression}
    {bound : Nat} (derives : Expression.Derives words expression)
    (nested : Word.NestedWithin bound words) : expression.depth ≤ bound := by
  obtain ⟨initial, begins, opened⟩ := derives.reaches
  have within := nested initial begins
  omega

end DiceOdds
