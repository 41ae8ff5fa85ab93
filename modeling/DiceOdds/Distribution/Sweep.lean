import DiceOdds.Distribution
import DiceOdds.EvalFault

/-!
# Sums of equal dice

The number of ways in which `count` dice with `sides` faces add up to `outcome`
is the alternating sum, over the numbers `i` of dice that are pushed past their
last face, of `C(count, i) * C(outcome - sides * i - 1, count - 1)`.

A sweep goes through the outcomes from the smallest up to the middle one and
carries both binomials of every term along, each from its value at the outcome
before.  The odds are symmetric, so the upper half of the outcomes is the lower one
read backwards.
-/

namespace DiceOdds

/-- The terms of the alternating sum that are alive at an outcome, each as the
pair of its two binomials, and the first binomial of the term added last. -/
structure Sweep where
  terms : List (Nat × Nat)
  choose : Nat
  deriving DecidableEq, Repr

def Sweep.start : Sweep :=
  { terms := [], choose := 1 }

/-- The second binomial of the term `index` at `outcome`, from its value at the
outcome before. -/
def Sweep.advanceTail (count sides outcome index tail : Nat) : Nat :=
  let upper := outcome - sides * index - 1
  tail * upper / (upper - (count - 1))

/-- The first binomial of the term `index`, from that of the term before it. -/
def Sweep.advanceChoose (count index choose : Nat) : Nat :=
  if index = 0 then choose else choose * (count - index + 1) / index

/-- Goes on to `outcome`: every term is carried along, and a new one comes alive
whenever another die can be pushed past its last face. -/
def Sweep.advance (count sides : Nat) (sweep : Sweep) (outcome : Nat) : Sweep :=
  let terms := sweep.terms.mapIdx fun index term =>
    (term.1, Sweep.advanceTail count sides outcome index term.2)
  if (outcome - count) % sides = 0 then
    let choose := Sweep.advanceChoose count terms.length sweep.choose
    { terms := terms ++ [(choose, 1)], choose }
  else
    { terms, choose := sweep.choose }

def Sweep.signedSums : List (Nat × Nat) → Nat × Nat
  | [] => (0, 0)
  | term :: rest =>
      let sums := Sweep.signedSums rest
      (term.1 * term.2 + sums.2, sums.1)

/-- The value of the alternating sum, unless it is negative. -/
def Sweep.frequency? (sweep : Sweep) : Option Nat :=
  let sums := Sweep.signedSums sweep.terms
  if sums.1 < sums.2 then none else some (sums.1 - sums.2)

/-- The outcome opposite to `outcome` between the smallest and the largest. -/
def Sweep.opposite (count sides outcome : Nat) : Nat :=
  count * sides - (outcome - count)

/-- The outcomes of the lower half, the middle one included. -/
def Sweep.lowerHalf (count sides : Nat) : List Nat :=
  List.range' count ((count * sides - count) / 2 + 1)

/-- Sweeps through some outcomes and puts each of them and its opposite into a
distribution. -/
def Sweep.fill (count sides : Nat) :
    List Nat → Sweep → Distribution → Except EvalFault Distribution
  | [], _, distribution => .ok distribution
  | outcome :: rest, sweep, distribution =>
      let next := sweep.advance count sides outcome
      match next.frequency? with
      | none => .error (.breach .negativeFrequency)
      | some ways =>
          let opposite := Int64.ofNat (Sweep.opposite count sides outcome)
          Sweep.fill count sides rest next
            ((distribution.put opposite ways).put (Int64.ofNat outcome) ways)

def Distribution.oneDie (sides : Nat) : Distribution :=
  .ofList ((List.range' 1 sides).map fun face => (Int64.ofNat face, 1))

/-- The distribution of the sum of some dice with numbered faces. -/
def Distribution.sumOfDice (count sides : UInt64) :
    Except EvalFault Distribution :=
  if 2 ^ 63 ≤ count.toNat * sides.toNat then
    .error .overflow
  else if count = 1 then
    .ok (.oneDie sides.toNat)
  else
    Sweep.fill count.toNat sides.toNat
      (Sweep.lowerHalf count.toNat sides.toNat) .start .empty

end DiceOdds
