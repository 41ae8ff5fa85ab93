import DiceOdds.Limits
import DiceOdds.Operator
import DiceOdds.Roll.Roller

/-!
# Throwing dice

A tray counts the dice thrown so far and holds the roller they are drawn from.
Dice are counted before the first of them is drawn, and what has been counted or
drawn stays so when a throw fails.
-/

namespace DiceOdds

/-- A roller and the number of dice counted so far. -/
structure Tray (σ : Type) where
  counted : Nat
  source : σ

/-- A computation that draws from a tray and may fail, keeping the tray. -/
abbrev Throwing (σ : Type) := ExceptT EvalFault (StateM (Tray σ))

def Tray.fresh {σ : Type} (source : σ) : Tray σ :=
  { counted := 0, source }

variable {σ : Type}

/-- Counts dice about to be thrown.  A count that a 64-bit word cannot hold is
refused and forgotten; one above the cap is refused but stays counted. -/
def Tray.charge (cap : Cap) (dice : UInt64) : Throwing σ Unit := do
  let tray ← get
  let counted := tray.counted + dice.toNat
  if 2 ^ 64 ≤ counted then
    throw .tooManyRolls
  else
    set { tray with counted }
    cap.check counted fun _ => .tooManyRolls

variable [Roller σ]

def Tray.draw (sides : UInt64) : Throwing σ UInt64 :=
  if positive : 0 < sides then do
    let tray ← get
    let (face, source) := Roller.draw sides positive tray.source
    set { tray with source }
    return face.val
  else
    throw (.breach .facelessDie)

def Faces.throwOne : Faces → Throwing σ Int64
  | .numbered sides => do
      let face ← Tray.draw sides
      toWord face.toNat
  | .fudge => do
      let face ← Tray.draw 3
      toWord (face.toNat - 2)

def Faces.throwSum (faces : Faces) : Nat → Int64 → Throwing σ Int64
  | 0, sum => return sum
  | dice + 1, sum => do
      let shown ← faces.throwOne
      let sum ← Operator.add.apply sum shown
      faces.throwSum dice sum

def middleOf (first second third : Int64) : Int64 :=
  max (min first second) (min (max first second) third)

def Faces.throwMiddle (faces : Faces) : Throwing σ Int64 := do
  let first ← faces.throwOne
  let second ← faces.throwOne
  let third ← faces.throwOne
  return middleOf first second third

/-- Throws dice; `cap` bounds the dice counted on the tray. -/
def Dice.throwAll (cap : Cap) (dice : Dice) : Throwing σ Int64 := do
  dice.validate
  Tray.charge cap dice.thrown
  match dice with
  | .sum count faces => faces.throwSum count.toNat 0
  | .middle faces => faces.throwMiddle

end DiceOdds
