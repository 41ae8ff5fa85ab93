import DiceOdds.Fault

/-!
# Faults written out

Besides its sentence every fault has a written-out form: the name of its cause
with everything the cause carries, nested as the fault is.
-/

namespace DiceOdds

def Inspection.variant (name : String) (values : List String) : String :=
  name ++ "(" ++ ", ".intercalate values ++ ")"

def Inspection.record (name : String) (fields : List (String × String)) : String :=
  name ++ " \x7b " ++
    ", ".intercalate (fields.map fun field => field.1 ++ ": " ++ field.2) ++ " \x7d"

def Inspection.list (values : List String) : String :=
  "[" ++ ", ".intercalate values ++ "]"

def Numeral.Fault.inspect (fault : Numeral.Fault) : String :=
  Inspection.record "ParseIntError" [("kind", match fault with
    | .empty => "Empty"
    | .invalidDigit => "InvalidDigit"
    | .tooLarge => "PosOverflow")]

def Dice.Fault.inspect : Dice.Fault → String
  | .noDelimiter => "NoDelimiter"
  | .invalidCount fault => Inspection.variant "InvalidCount" [fault.inspect]
  | .invalidFaces fault => Inspection.variant "InvalidFaces" [fault.inspect]

def Token.Kind.inspect : Token.Kind → String
  | .dice => "Dice"
  | .integer => "Integer"
  | .plus => "Plus"
  | .minus => "Minus"
  | .star => "Star"
  | .slash => "Slash"
  | .openParen => "LeftParen"
  | .closeParen => "RightParen"

def Token.Unknown.inspect (unknown : Token.Unknown) : String :=
  Inspection.record "SyntaxError"
    [("position", toString unknown.position),
      ("found", Text.quote unknown.found.toString)]

def GrammarFault.Cause.inspect : GrammarFault.Cause → String
  | .unexpectedToken found expected =>
      Inspection.record "UnexpectedToken"
        [("found", found.inspect),
          ("expected", Inspection.list (expected.map Token.Kind.inspect))]
  | .unexpectedEnd expected =>
      Inspection.record "UnexpectedEnd"
        [("expected", Inspection.list (expected.map Token.Kind.inspect))]
  | .unclosedParen opening =>
      Inspection.record "UnclosedParen" [("open", toString opening)]
  | .unmatchedParen => "UnmatchedParen"
  | .invalidNumber fault => Inspection.variant "InvalidNumber" [fault.inspect]
  | .invalidDice fault => Inspection.variant "InvalidDice" [fault.inspect]
  | .tooDeep limit => Inspection.record "TooDeep" [("limit", toString limit)]

/-- A grammar fault written out, with the bytes it is about. -/
def GrammarFault.inspect (fault : GrammarFault) : String :=
  Inspection.record "ParseError"
    [("kind", fault.cause.inspect),
      ("span", toString fault.start ++ ".." ++ toString fault.stop),
      ("slice", Text.quote fault.slice)]

def EvalFault.inspect : EvalFault → String
  | .divisionByZero => "DivisionByZero"
  | .overflow => "Overflow"
  | .invalidDice dice defect =>
      Inspection.record "InvalidDice"
        [("dice", Text.quote dice.text), ("reason", Text.quote defect.message)]
  | .tooManyRolls => "TooManyRolls"
  | .tooManyCombinations limit =>
      Inspection.record "TooManyCombinations" [("limit", toString limit)]
  | .tooDeep depth limit =>
      Inspection.record "TooDeep"
        [("depth", toString depth), ("limit", toString limit)]
  | .breach cause => Inspection.variant "Invariant" [Text.quote cause.message]

/-- A fault with its cause and everything the cause carries. -/
def Fault.inspect : Fault → String
  | .read (.unrecognized unknown) => Inspection.variant "Syntax" [unknown.inspect]
  | .read (.ungrammatical fault) => Inspection.variant "Parse" [fault.inspect]
  | .evaluation fault => Inspection.variant "Eval" [fault.inspect]

end DiceOdds
