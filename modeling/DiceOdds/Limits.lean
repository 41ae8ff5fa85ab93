import DiceOdds.EvalFault

/-!
# Limits

Caps on the work that evaluating an expression may take.  An absent cap allows
everything.
-/

namespace DiceOdds

abbrev Cap := Option Nat

/-- Refuses an amount above the cap with a fault that names the cap. -/
def Cap.check (cap : Cap) (amount : Nat) (fault : Nat → EvalFault) :
    Except EvalFault Unit :=
  match cap with
  | none => .ok ()
  | some limit => if amount ≤ limit then .ok () else .error (fault limit)

theorem Cap.check_eq_error_iff {cap : Cap} {amount : Nat} {fault : Nat → EvalFault}
    {refusal : EvalFault} :
    cap.check amount fault = .error refusal ↔
      ∃ limit, cap = some limit ∧ limit < amount ∧ refusal = fault limit := by
  cases cap with
  | none => simp [Cap.check]
  | some limit =>
      by_cases within : amount ≤ limit
      · simp [Cap.check, within, Nat.not_lt.mpr within]
      · simp [Cap.check, within, Nat.lt_of_not_le within, eq_comm]

theorem Cap.check_eq_ok_iff {cap : Cap} {amount : Nat} {fault : Nat → EvalFault} :
    cap.check amount fault = .ok () ↔ ∀ limit, cap = some limit → amount ≤ limit := by
  cases cap with
  | none => simp [Cap.check]
  | some limit => simp [Cap.check]

/-- What evaluating an expression may cost. -/
structure Limits where
  /-- Dice thrown by one roll. -/
  maxRolls : Cap
  /-- Pairs joined by one operator, and work on one throw of dice. -/
  maxCombinations : Cap
  /-- Nesting of parentheses. -/
  maxDepth : Cap
  deriving DecidableEq, Repr

def Limits.unbounded : Limits :=
  { maxRolls := none, maxCombinations := none, maxDepth := none }

def Limits.standard : Limits :=
  { maxRolls := some 1000, maxCombinations := some 1000000, maxDepth := some 64 }

end DiceOdds
