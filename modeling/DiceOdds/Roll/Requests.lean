import DiceOdds.Roll.Evaluation

/-!
# Requests to one tray

A tray can be used again: for one roll after another, and for single throws in
between.  It goes on counting where it was left, also after a request that failed.
-/

namespace DiceOdds

/-- What can be asked of a tray. -/
inductive Request where
  | roll (expression : Expression)
  | throwOnce (dice : Dice)

variable {σ : Type} [Roller σ]

def Request.rollOn (cap : Cap) : Request → Tray σ → Except EvalFault Int64 × Tray σ
  | .roll expression, tray => expression.rollOn cap tray
  | .throwOnce dice, tray => dice.rollOn cap tray

/-- The answers to one request after another, and the tray that is left. -/
def Tray.serve (cap : Cap) (tray : Tray σ) :
    List Request → List (Except EvalFault Int64) × Tray σ
  | [] => ([], tray)
  | request :: requests =>
      let (result, tray) := request.rollOn cap tray
      let (results, tray) := tray.serve cap requests
      (result :: results, tray)

end DiceOdds
