import DiceOdds.Distribution.Evaluation
import DiceOdds.Expression.Printer
import DiceOdds.Odds
import DiceOdds.Roll.Evaluation

/-!
# Sessions

A session keeps one expression together with its limits and its source of
draws, and remembers the odds computed last until the limits change.
-/

namespace DiceOdds

/-- An expression that can be rolled and computed again and again. -/
structure Session (σ : Type) where
  text : String
  expression : Expression
  limits : Limits
  source : σ
  odds : Option Odds

variable {σ : Type}

def Session.start (text : String) (source : σ) : Except ReadFault (Session σ) :=
  (Expression.read text).map fun expression =>
    { text, expression, limits := .standard, source, odds := none }

def Session.normalized (session : Session σ) : String :=
  session.expression.text

/-- Puts other limits in force; odds computed under the old ones are forgotten. -/
def Session.withLimits (session : Session σ) (limits : Limits) : Session σ :=
  { session with limits, odds := none }

def Expression.odds (limits : Limits) (expression : Expression) :
    Except EvalFault Odds := do
  let distribution ← expression.distribution limits
  Odds.ofDistribution distribution

/-- Computes the odds and remembers them; a failure leaves the session as it is. -/
def Session.calculate (session : Session σ) : Except EvalFault Odds × Session σ :=
  match session.expression.odds session.limits with
  | .ok odds => (.ok odds, { session with odds := some odds })
  | .error fault => (.error fault, session)

theorem Session.calculate_fst (session : Session σ) :
    session.calculate.1 = session.expression.odds session.limits := by
  rw [Session.calculate]
  split
  · rename_i computed
    exact computed.symm
  · rename_i computed
    exact computed.symm

variable [Roller σ]

/-- Rolls once.  The source moves on even if the roll fails. -/
def Session.roll (session : Session σ) : Except EvalFault Int64 × Session σ :=
  let (result, source) :=
    session.expression.roll session.limits.maxRolls session.source
  (result, { session with source })

/-- Rolls so many times, up to and including the first roll that fails. -/
def Session.rollMany : Nat → Session σ → Except EvalFault (List Int64) × Session σ
  | 0, session => (.ok [], session)
  | rolls + 1, session =>
      match session.roll with
      | (.error fault, session) => (.error fault, session)
      | (.ok value, session) =>
          let (values, session) := Session.rollMany rolls session
          (values.map (value :: ·), session)

def rollText (text : String) (source : σ) : Except Fault Int64 := do
  let session ← (Session.start text source).mapError .read
  session.roll.1.mapError .evaluation

end DiceOdds
