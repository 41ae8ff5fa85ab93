/-!
# Dice

The dice an expression may throw: a number of equal dice whose faces are added
up, or three equal dice of which the middle one counts.  A die is numbered from
one upwards or is a Fudge die, which shows minus one, zero or plus one.
-/

namespace DiceOdds

/-- What the faces of a die show. -/
inductive Faces where
  /-- The numbers from one to `sides`. -/
  | numbered (sides : UInt64)
  /-- Minus one, zero and plus one, each equally likely. -/
  | fudge
  deriving DecidableEq, Repr

def Faces.outcomes : Faces → UInt64
  | .numbered sides => sides
  | .fudge => 3

def Faces.text : Faces → String
  | .numbered sides => toString sides.toNat
  | .fudge => "F"

/-- One throw of dice, read as a single number. -/
inductive Dice where
  /-- The sum of `count` dice. -/
  | sum (count : UInt64) (faces : Faces)
  /-- The middle one of three dice. -/
  | middle (faces : Faces)
  deriving DecidableEq, Repr

def Dice.faces : Dice → Faces
  | .sum _ faces => faces
  | .middle faces => faces

def Dice.thrown : Dice → UInt64
  | .sum count _ => count
  | .middle _ => 3

def Dice.text : Dice → String
  | .sum count faces => toString count.toNat ++ "d" ++ faces.text
  | .middle faces => "mid" ++ faces.text

/-- Why dice cannot be thrown. -/
inductive Dice.Defect where
  | noDice
  | noFaces
  deriving DecidableEq, Repr

def Dice.Defect.message : Dice.Defect → String
  | .noDice => "at least one die must be rolled"
  | .noFaces => "dice need at least one face"

/-- The defect of the dice, if they have one.  A missing die is noticed before
missing faces. -/
def Dice.defect? : Dice → Option Dice.Defect
  | .sum count faces =>
      if count = 0 then some .noDice
      else if faces.outcomes = 0 then some .noFaces
      else none
  | .middle faces => if faces.outcomes = 0 then some .noFaces else none

/-- Size of an exact computation for the dice: one unit for each die and each
value that the whole throw can take, or one for each face of a middle die. -/
def Dice.work : Dice → Nat
  | .sum count faces =>
      count.toNat * (count.toNat * (faces.outcomes.toNat - 1) + 1)
  | .middle faces => faces.outcomes.toNat

end DiceOdds
