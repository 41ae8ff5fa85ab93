import DiceOdds.Distribution.Middle
import DiceOdds.Distribution.Sweep

/-!
# Fudge dice

A Fudge die is a cube on which each of minus one, zero and plus one stands
twice.  Its odds are those of a die numbered from one to three, moved so that
they are centred on zero, with two ways for each way of every die.
-/

namespace DiceOdds

/-- How many faces of a Fudge die carry each of its values. -/
def Fudge.facesPerValue : Nat := 2

/-- Lowers every outcome by `offset`, keeps those at most `reach` away from
zero, and gives each way a weight. -/
def Distribution.recentre (distribution : Distribution) (offset reach : Int)
    (weight : Nat) : Distribution :=
  .ofList (distribution.entries.filterMap fun entry =>
    let moved := entry.1.toInt - offset
    if -reach ≤ moved ∧ moved ≤ reach then
      some (Int64.ofInt moved, entry.2 * weight)
    else
      none)

def Distribution.sumOfFudge (count : UInt64) : Except EvalFault Distribution :=
  if 2 ^ 32 ≤ count.toNat then
    .error .overflow
  else
    (Distribution.sumOfDice count 3).map fun distribution =>
      distribution.recentre (2 * count.toNat) count.toNat
        (Fudge.facesPerValue.pow count.toNat)

/-- The distribution of the middle one of three Fudge dice. -/
def Distribution.middleOfFudge : Except EvalFault Distribution :=
  (Distribution.middleOfDice 3).map fun distribution =>
    distribution.recentre 2 1 (Fudge.facesPerValue ^ 3)

end DiceOdds
