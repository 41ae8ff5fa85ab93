import DiceOdds.Session

/-!
# Views of a session

What a session shows of the odds computed last.  All views are empty before the
first computation and after a change of limits.
-/

namespace DiceOdds

variable {σ : Type}

/-- What can be read off the odds, if there are any. -/
def Session.view {β : Type} (session : Session σ) (read : Odds → β) : Option β :=
  session.odds.map read

def Session.min (session : Session σ) : Option Int64 :=
  session.view Odds.min

def Session.max (session : Session σ) : Option Int64 :=
  session.view Odds.max

def Session.bounds (session : Session σ) : Option (Int64 × Int64) :=
  session.view Odds.bounds

def Session.outcomes (session : Session σ) : Option (List Int64) :=
  session.view Odds.outcomes

def Session.outcomeTexts (session : Session σ) : Option (List String) :=
  session.view Odds.outcomeTexts

def Session.permutations (session : Session σ) : Option Nat :=
  session.view Odds.permutations

def Session.distribution (session : Session σ) : Option Distribution :=
  session.view Odds.distribution

def Session.probabilities (session : Session σ) : Option (List (Int64 × Binary64)) :=
  session.view Odds.probabilities

def Session.probability (session : Session σ) (outcome : Int64) : Option Binary64 :=
  session.view fun odds => odds.probability outcome

end DiceOdds
