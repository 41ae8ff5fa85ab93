import DiceOdds.Dice.Reader
import DiceOdds.Token

/-!
# Scanning

A text is cut into tokens from left to right.  At each place the longest token
wins, blanks between tokens are dropped, and a character at which no token
begins is reported on its own, after which scanning goes on.
-/

namespace DiceOdds

def Token.isBlank (character : Char) : Bool :=
  character == ' ' || character == '\t' || character == '\r' || character == '\n'

def Token.isDigit (character : Char) : Bool :=
  (Numeral.digit? character).isSome

/-- Number of characters at the start of a text that name the faces of dice,
the letter d included; zero if the text does not begin so. -/
def Token.facesLength : List Char → Nat
  | delimiter :: face :: rest =>
      if !Dice.isDelimiter delimiter then 0
      else if Faces.isFudgeWord [face] then 2
      else if Token.isDigit face then 2 + (rest.takeWhile Token.isDigit).length
      else 0
  | _ => 0

/-- The longest token that begins with `first` in the text `first :: rest`: its
kind and the number of characters of `rest` that belong to it. -/
def Token.longest? (first : Char) (rest : List Char) :
    Option (Token.Kind × Nat) :=
  if Token.isDigit first then
    let digits := (rest.takeWhile Token.isDigit).length
    match Token.facesLength (rest.drop digits) with
    | 0 => some (.integer, digits)
    | length => some (.dice, digits + length)
  else if Dice.isMiddleWord (first :: rest.take 1) then
    match Token.facesLength (rest.drop 1) with
    | 0 => none
    | length => some (.dice, 1 + length)
  else
    match first with
    | '+' => some (.plus, 0)
    | '-' => some (.minus, 0)
    | '*' => some (.star, 0)
    | '/' => some (.slash, 0)
    | '(' => some (.openParen, 0)
    | ')' => some (.closeParen, 0)
    | _ => none

/-- What a place of a text that is not blank holds. -/
inductive Token.Piece where
  | token (token : Token)
  | unknown (unknown : Token.Unknown)
  deriving DecidableEq, Repr

/-- Scans a text that begins at the byte offset `position`, after the next
`skip` characters, which belong to a token already found. -/
def Token.scanFrom (skip position : Nat) : List Char → List Token.Piece
  | [] => []
  | first :: rest =>
      let next := position + first.utf8Size
      match skip with
      | skip + 1 => Token.scanFrom skip next rest
      | 0 =>
          if Token.isBlank first then
            Token.scanFrom 0 next rest
          else
            match Token.longest? first rest with
            | some (kind, length) =>
                .token ⟨kind, String.ofList (first :: rest.take length), position⟩ ::
                  Token.scanFrom length next rest
            | none => .unknown ⟨position, first⟩ :: Token.scanFrom 0 next rest

/-- The tokens of a text and the characters between them that are no tokens. -/
def Token.scan (text : String) : List Token.Piece :=
  Token.scanFrom 0 0 text.toList

def Token.Piece.token? : Token.Piece → Except Token.Unknown Token
  | .token word => .ok word
  | .unknown stray => .error stray

/-- Cuts a text into tokens; the first character that belongs to none is the
fault reported. -/
def tokenize (text : String) : Except Token.Unknown (List Token) :=
  (Token.scan text).mapM Token.Piece.token?

end DiceOdds
