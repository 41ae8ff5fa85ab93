import DiceOdds.Expression
import DiceOdds.Expression.ReadFault
import DiceOdds.Token.Scanner

/-!
# Reading expressions

Tokens are read one at a time by a machine that keeps what is still open: the
sum and the product to the left of the next operand, and, for every parenthesis
not yet closed, what was open outside it.  Each token either moves the machine
on or is the fault that is reported; the end of the text is judged last.
-/

namespace DiceOdds

def Expression.maxReadDepth : Nat := 64

/-- What stands to the left of an operand and waits for it. -/
structure Pending where
  sum : Option (Expression × Operator)
  product : Option (Term × Operator)

/-- A parenthesis not yet closed: its offset, and what waits outside for the
group. -/
structure OpenGroup where
  opening : Nat
  outer : Pending

/-- Where reading stands: before an operand, or behind a complete one.  Groups
are listed from the innermost to the outermost. -/
inductive Reading where
  | beforeOperand (groups : List OpenGroup) (pending : Pending)
  | afterOperand (groups : List OpenGroup) (sum : Option (Expression × Operator))
      (term : Term)

def Pending.start : Pending :=
  { sum := none, product := none }

def Pending.complete (pending : Pending) (operand : Atom) : Term :=
  match pending.product with
  | none => .atom operand
  | some (lhs, operator) => .combine lhs operator operand

def Expression.complete (sum : Option (Expression × Operator)) (term : Term) :
    Expression :=
  match sum with
  | none => .term term
  | some (lhs, operator) => .combine lhs operator term

def Token.Kind.operandStarts : List Token.Kind :=
  [.integer, .dice, .openParen]

/-- The kinds of tokens that may follow an operand inside so many open groups. -/
def Token.Kind.afterOperand (groups : List OpenGroup) : List Token.Kind :=
  if groups.isEmpty then
    [.plus, .minus, .star, .slash]
  else
    [.closeParen, .plus, .minus, .star, .slash]

def Token.fault (token : Token) (cause : GrammarFault.Cause) : ReadFault :=
  .ungrammatical
    { cause, start := token.start, stop := token.stop, slice := token.lexeme }

def Reading.supply (groups : List OpenGroup) (pending : Pending)
    (operand : Atom) : Reading :=
  .afterOperand groups pending.sum (pending.complete operand)

def Reading.readOperand (groups : List OpenGroup) (pending : Pending)
    (token : Token) : Except ReadFault Reading :=
  match token.kind with
  | .integer =>
      match Numeral.readConstant token.lexeme.toList with
      | .ok value => .ok (.supply groups pending (.constant value))
      | .error fault => .error (token.fault (.invalidNumber fault))
  | .dice =>
      match Dice.read token.lexeme.toList with
      | .ok dice => .ok (.supply groups pending (.dice dice token.lexeme))
      | .error fault => .error (token.fault (.invalidDice fault))
  | .openParen =>
      if groups.length < Expression.maxReadDepth then
        .ok (.beforeOperand (⟨token.start, pending⟩ :: groups) .start)
      else
        .error (token.fault (.tooDeep Expression.maxReadDepth))
  | found =>
      .error (token.fault (.unexpectedToken found Token.Kind.operandStarts))

def Reading.readOperator (groups : List OpenGroup)
    (sum : Option (Expression × Operator)) (term : Term) (token : Token) :
    Except ReadFault Reading :=
  match token.kind, groups with
  | .plus, _ =>
      .ok (.beforeOperand groups ⟨some (.complete sum term, .add), none⟩)
  | .minus, _ =>
      .ok (.beforeOperand groups ⟨some (.complete sum term, .sub), none⟩)
  | .star, _ => .ok (.beforeOperand groups ⟨sum, some (term, .mul)⟩)
  | .slash, _ => .ok (.beforeOperand groups ⟨sum, some (term, .div)⟩)
  | .closeParen, [] => .error (token.fault .unmatchedParen)
  | .closeParen, group :: outer =>
      .ok (.supply outer group.outer (.group (.complete sum term)))
  | found, _ =>
      .error
        (token.fault (.unexpectedToken found (Token.Kind.afterOperand groups)))

def Reading.step (reading : Reading) (piece : Token.Piece) :
    Except ReadFault Reading :=
  match reading, piece with
  | _, .unknown stray => .error (.unrecognized stray)
  | .beforeOperand groups pending, .token word =>
      Reading.readOperand groups pending word
  | .afterOperand groups sum term, .token word =>
      Reading.readOperator groups sum term word

def Reading.finish (size : Nat) : Reading → Except ReadFault Expression
  | .beforeOperand _ _ =>
      .error (.ungrammatical
        ⟨.unexpectedEnd Token.Kind.operandStarts, size, size, ""⟩)
  | .afterOperand (group :: _) _ _ =>
      .error (.ungrammatical ⟨.unclosedParen group.opening, size, size, ""⟩)
  | .afterOperand [] sum term => .ok (.complete sum term)

def Reading.initial : Reading :=
  .beforeOperand [] .start

def Expression.read (text : String) : Except ReadFault Expression := do
  let reading ← (Token.scan text).foldlM Reading.step Reading.initial
  reading.finish text.utf8ByteSize

end DiceOdds
