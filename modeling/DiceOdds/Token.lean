import DiceOdds.Operator

/-!
# Tokens

The words of a dice expression: dice, integers, operators and parentheses, each
with the text it was written as and the byte offset where it begins.
-/

namespace DiceOdds

/-- The kinds of tokens. -/
inductive Token.Kind where
  | dice
  | integer
  | plus
  | minus
  | star
  | slash
  | openParen
  | closeParen
  deriving DecidableEq, Repr

def Token.Kind.text : Token.Kind → String
  | .dice => "<dice>"
  | .integer => "<integer>"
  | .plus => "'+'"
  | .minus => "'-'"
  | .star => "'*'"
  | .slash => "'/'"
  | .openParen => "'('"
  | .closeParen => "')'"

def Token.Kind.operator? : Token.Kind → Option Operator
  | .plus => some .add
  | .minus => some .sub
  | .star => some .mul
  | .slash => some .div
  | _ => none

/-- A word of an expression. -/
structure Token where
  kind : Token.Kind
  lexeme : String
  /-- Offset of the first byte of the lexeme in the text. -/
  start : Nat
  deriving DecidableEq, Repr

def Token.stop (token : Token) : Nat :=
  token.start + token.lexeme.utf8ByteSize

/-- A character at which no token begins. -/
structure Token.Unknown where
  position : Nat
  found : Char
  deriving DecidableEq, Repr

/-- One sentence about a character at which no token begins. -/
def Token.Unknown.message (unknown : Token.Unknown) : String :=
  "unrecognized input at position " ++ toString unknown.position ++ ": " ++
    Text.quote unknown.found.toString

end DiceOdds
