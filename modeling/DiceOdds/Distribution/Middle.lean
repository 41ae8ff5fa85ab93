import DiceOdds.Distribution
import DiceOdds.EvalFault

/-!
# The middle of three dice

Of three dice with `sides` faces the middle one shows `face` in
`1 + 3 * (sides - 1) + 6 * (face - 1) * (sides - face)` ways: all three dice
alike, exactly two of them alike, or all of them different in any order.
-/

namespace DiceOdds

/-- Ways in which the middle one of three dice shows a face. -/
def Middle.frequency (sides face : Nat) : Nat :=
  (sides - 1) * 3 + 1 + (face - 1) * (sides - face) * 6

/-- The distribution of the middle one of three dice with numbered faces.  Its
total is held against the number of all throws. -/
def Distribution.middleOfDice (sides : UInt64) : Except EvalFault Distribution :=
  if 2 ^ 63 ≤ sides.toNat then
    .error .overflow
  else
    let distribution := Distribution.ofList
      ((List.range' 1 sides.toNat).map fun face =>
        (Int64.ofNat face, Middle.frequency sides.toNat face))
    if distribution.total = sides.toNat ^ 3 then
      .ok distribution
    else
      .error (.breach .unbalancedMiddle)

end DiceOdds
