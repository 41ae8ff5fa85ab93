import DiceOdds.Dice.Reader
import DiceOdds.Token

/-!
# Faults of an expression text

Why a text is no expression: a character that belongs to no token, or a place at
which the grammar, a number or the nesting limit is violated.  Each grammar
fault carries the bytes it is about.
-/

namespace DiceOdds

/-- The ways in which a sequence of tokens fails to be an expression. -/
inductive GrammarFault.Cause where
  | unexpectedToken (found : Token.Kind) (expected : List Token.Kind)
  | unexpectedEnd (expected : List Token.Kind)
  | unclosedParen (opening : Nat)
  | unmatchedParen
  | invalidNumber (fault : Numeral.Fault)
  | invalidDice (fault : Dice.Fault)
  | tooDeep (limit : Nat)
  deriving DecidableEq, Repr

/-- A cause together with the bytes, from `start` up to `stop`, it is about. -/
structure GrammarFault where
  cause : GrammarFault.Cause
  start : Nat
  stop : Nat
  slice : String
  deriving DecidableEq, Repr

/-- Why a text is no expression. -/
inductive ReadFault where
  | unrecognized (unknown : Token.Unknown)
  | ungrammatical (fault : GrammarFault)
  deriving DecidableEq, Repr

def Token.Kind.alternatives : List Token.Kind → String
  | [] => ""
  | [kind] => kind.text
  | [first, second] => first.text ++ " or " ++ second.text
  | kinds =>
      String.join (kinds.dropLast.map fun kind => kind.text ++ ", ") ++ "or " ++
        String.join (kinds.getLast?.toList.map Token.Kind.text)

def GrammarFault.Cause.message : GrammarFault.Cause → String
  | .unexpectedToken found expected =>
      "unexpected token: found " ++ found.text ++ ", expected " ++
        Token.Kind.alternatives expected
  | .unexpectedEnd expected =>
      "unexpected end of input, expected " ++ Token.Kind.alternatives expected
  | .unclosedParen opening =>
      "parenthesis opened at position " ++ toString opening ++ " was not closed"
  | .unmatchedParen => "closing parenthesis has no matching '('"
  | .invalidNumber fault => "invalid number: " ++ fault.message
  | .invalidDice fault => "invalid dice literal: " ++ fault.message
  | .tooDeep limit =>
      "parentheses nested more than " ++ toString limit ++ " levels deep"

def GrammarFault.message (fault : GrammarFault) : String :=
  "error at position " ++ toString fault.start ++ " (" ++
    Text.quote fault.slice ++ "): " ++ fault.cause.message

def ReadFault.message : ReadFault → String
  | .unrecognized unknown => unknown.message
  | .ungrammatical fault => fault.message

end DiceOdds
