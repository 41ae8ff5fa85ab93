import DiceOdds.Distribution.Sweep
import DiceOdds.Operator

/-!
# A sweep on machine words

The sweep of equal dice with every operation checked.  Outcomes are signed words,
counts of dice are unsigned words, and only the binomials and their products are
natural numbers of any size.  An operation fails if its exact result does not fit its
word, or if a quotient leaves a rest.
-/

namespace DiceOdds

/-- The signed word of an integer that fits one. -/
def Checked.signed (value : Int) : Option Int64 :=
  if isWord value then some (Int64.ofInt value) else none

/-- The unsigned word of an integer that fits one. -/
def Checked.unsigned (value : Int) : Option UInt64 :=
  if 0 ≤ value ∧ value < 2 ^ 64 then some (UInt64.ofNat value.toNat) else none

/-- A quotient without a rest, by a positive divisor. -/
def Checked.quotient (dividend divisor : Nat) : Option Nat :=
  if 0 < divisor ∧ divisor ∣ dividend then some (dividend / divisor) else none

/-- The words that stay the same while dice are swept: how many dice there are and how
many besides the first one, their sides, and the least, the middle and the greatest
outcome. -/
structure WordSweep where
  count : UInt64
  others : UInt64
  sides : Int64
  least : Int64
  middle : Int64
  greatest : Int64
  deriving DecidableEq, Repr

def WordSweep.ofDice? (count sides : UInt64) : Option WordSweep := do
  let least ← Checked.signed count.toNat
  let product ← Checked.unsigned (count.toNat * sides.toNat)
  let greatest ← Checked.signed product.toNat
  let signedSides ← Checked.signed sides.toNat
  let span ← Checked.signed (greatest.toInt - least.toInt)
  let middle ← Checked.signed (least.toInt + span.toInt.tdiv 2)
  let others ← Checked.unsigned (count.toNat - 1)
  return { count, others, sides := signedSides, least, middle, greatest }

/-- `outcome - sides * index - 1`, which is signed until its last word. -/
def WordSweep.upper? (frame : WordSweep) (outcome : Int64) (index : Nat) :
    Option UInt64 := do
  let place ← Checked.signed index
  let pushed ← Checked.signed (frame.sides.toInt * place.toInt)
  let rest ← Checked.signed (outcome.toInt - pushed.toInt)
  let upper ← Checked.signed (rest.toInt - 1)
  Checked.unsigned upper.toInt

def WordSweep.advanceTail? (frame : WordSweep) (outcome : Int64) (index tail : Nat) :
    Option Nat := do
  let upper ← frame.upper? outcome index
  let divisor ← Checked.unsigned (upper.toNat - frame.others.toNat)
  Checked.quotient (tail * upper.toNat) divisor.toNat

def WordSweep.advanceChoose? (frame : WordSweep) (terms choose : Nat) : Option Nat := do
  let index ← Checked.unsigned terms
  if index = 0 then
    return choose
  else
    let rest ← Checked.unsigned (frame.count.toNat - index.toNat)
    let factor ← Checked.unsigned (rest.toNat + 1)
    Checked.quotient (choose * factor.toNat) index.toNat

/-- Carries the terms along; `index` is the number of the first of them. -/
def WordSweep.carry? (frame : WordSweep) (outcome : Int64) :
    Nat → List (Nat × Nat) → Option (List (Nat × Nat))
  | _, [] => some []
  | index, term :: rest => do
      let tail ← frame.advanceTail? outcome index term.2
      let rest ← frame.carry? outcome (index + 1) rest
      return (term.1, tail) :: rest

def WordSweep.advance? (frame : WordSweep) (sweep : Sweep) (outcome : Int64) :
    Option Sweep := do
  let terms ← frame.carry? outcome 0 sweep.terms
  let risen ← Checked.signed (outcome.toInt - frame.least.toInt)
  if frame.sides = 0 then
    none
  else if risen.toInt.tmod frame.sides.toInt = 0 then
    let choose ← frame.advanceChoose? terms.length sweep.choose
    return { terms := terms ++ [(choose, 1)], choose }
  else
    return { terms, choose := sweep.choose }

def WordSweep.opposite? (frame : WordSweep) (outcome : Int64) : Option Int64 := do
  let risen ← Checked.signed (outcome.toInt - frame.least.toInt)
  Checked.signed (frame.greatest.toInt - risen.toInt)

/-- One round of the sweep, which puts an outcome and its opposite into the
distribution. -/
def WordSweep.step? (frame : WordSweep) (state : Sweep × Distribution)
    (outcome : Int64) : Option (Sweep × Distribution) := do
  let next ← frame.advance? state.1 outcome
  let ways ← next.frequency?
  let opposite ← frame.opposite? outcome
  return (next, (state.2.put opposite ways).put outcome ways)

/-- The outcomes from the least up to `last`. -/
def WordSweep.outcomesTo (frame : WordSweep) (last : Int64) : List Int64 :=
  (List.range' frame.least.toInt.toNat (last.toInt - frame.least.toInt + 1).toNat).map
    Int64.ofNat

/-- The sweep and the distribution at the end of the round for `last`. -/
def WordSweep.through? (frame : WordSweep) (last : Int64) :
    Option (Sweep × Distribution) :=
  (frame.outcomesTo last).foldlM frame.step? (.start, .empty)

end DiceOdds
