import DiceOdds.Dice
import DiceOdds.Numeral

/-!
# Reading dice

A dice text is split at its first letter d.  The part behind it names the faces
and is read first; the part before it is either the word for the middle of three
dice or a count.  Letters may be written in either case.
-/

namespace DiceOdds

/-- Why a text names no dice. -/
inductive Dice.Fault where
  | noDelimiter
  | invalidCount (fault : Numeral.Fault)
  | invalidFaces (fault : Numeral.Fault)
  deriving DecidableEq, Repr

def Dice.Fault.message : Dice.Fault → String
  | .noDelimiter => "cannot parse string as dice without 'd' delimiter"
  | .invalidCount fault => "invalid dice count: " ++ fault.message
  | .invalidFaces fault => "invalid dice faces: " ++ fault.message

def Dice.isDelimiter (character : Char) : Bool :=
  character == 'd' || character == 'D'

/-- The word, in any case, that stands for the middle of three dice. -/
def Dice.isMiddleWord : List Char → Bool
  | [first, second] =>
      (first == 'm' || first == 'M') && (second == 'i' || second == 'I')
  | _ => false

/-- The letter, in either case, that stands for Fudge faces. -/
def Faces.isFudgeWord : List Char → Bool
  | [letter] => letter == 'f' || letter == 'F'
  | _ => false

def Faces.read (text : List Char) : Except Numeral.Fault Faces :=
  if Faces.isFudgeWord text then
    .ok .fudge
  else
    (Numeral.readCount text).map .numbered

def Dice.read (text : List Char) : Except Dice.Fault Dice :=
  match text.dropWhile (fun character => !Dice.isDelimiter character) with
  | [] => .error .noDelimiter
  | _ :: facesText => do
      let countText := text.takeWhile (fun character => !Dice.isDelimiter character)
      let faces ← (Faces.read facesText).mapError .invalidFaces
      if Dice.isMiddleWord countText then
        return .middle faces
      else
        let count ← (Numeral.readCount countText).mapError .invalidCount
        return .sum count faces

end DiceOdds
