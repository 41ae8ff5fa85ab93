import DiceOdds.Binary64
import DiceOdds.Distribution
import DiceOdds.EvalFault

/-!
# Odds

A distribution that has at least one way, seen as a table of probabilities.
-/

namespace DiceOdds

/-- A distribution with at least one way in all. -/
structure Odds where
  distribution : Distribution
  total_positive : 0 < distribution.total

/-- The odds of a distribution; one without outcomes or without ways has none. -/
def Odds.ofDistribution (distribution : Distribution) : Except EvalFault Odds :=
  if distribution.entries.isEmpty then
    .error (.breach .noOutcomes)
  else if positive : 0 < distribution.total then
    .ok { distribution, total_positive := positive }
  else
    .error (.breach .noPermutations)

def Odds.outcomes (odds : Odds) : List Int64 :=
  odds.distribution.outcomes

theorem Odds.outcomes_ne_nil (odds : Odds) : odds.outcomes ≠ [] := by
  intro none
  have entriesNil : odds.distribution.entries = [] := by
    simpa [Odds.outcomes, Distribution.outcomes] using none
  have positive := odds.total_positive
  simp [Distribution.total, entriesNil] at positive

def Odds.min (odds : Odds) : Int64 :=
  odds.outcomes.head odds.outcomes_ne_nil

def Odds.max (odds : Odds) : Int64 :=
  odds.outcomes.getLast odds.outcomes_ne_nil

/-- The least and the greatest outcome. -/
def Odds.bounds (odds : Odds) : Int64 × Int64 :=
  (odds.min, odds.max)

def Odds.outcomeTexts (odds : Odds) : List String :=
  odds.outcomes.map fun outcome => toString outcome.toInt

def Odds.permutations (odds : Odds) : Nat :=
  odds.distribution.total

def Odds.frequency (odds : Odds) (outcome : Int64) : Nat :=
  odds.distribution.frequency outcome

def Odds.probability (odds : Odds) (outcome : Int64) : Binary64 :=
  .nearest (odds.frequency outcome) odds.permutations

/-- The outcomes with their shares in all ways, in ascending order. -/
def Odds.probabilities (odds : Odds) : List (Int64 × Binary64) :=
  let permutations := odds.permutations
  odds.distribution.entries.map fun entry =>
    (entry.1, .nearest entry.2 permutations)

end DiceOdds
