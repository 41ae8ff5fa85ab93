import DiceOdds.Proofs.AskedDraws
import DiceOdds.Proofs.EvaluationFaults
import DiceOdds.Roll.Requests

/-!
# Trays that are used again

What every throw keeps of a tray is kept by whole rolls and by any requests, also by
those that fail.  A throw can end in five ways, and each is told by what it leaves on
the tray.  The draws never exceed the count, which grows before the dice are drawn,
nor the cap, which is asked in between.
-/

namespace DiceOdds

variable {σ α β : Type}

/-- The action leaves a tray with the property if it finds one. -/
def Throwing.Keeps (property : Tray σ → Prop) (action : Throwing σ α) : Prop :=
  ∀ tray, property tray → property (action.run tray).2

section Keeping

variable {property : Tray σ → Prop}

theorem Throwing.Keeps.lift (result : Except EvalFault α) :
    Throwing.Keeps property (liftM result : Throwing σ α) :=
  fun _ holds => holds

theorem Throwing.Keeps.bind {action : Throwing σ α} {next : α → Throwing σ β}
    (first : action.Keeps property) (second : ∀ value, (next value).Keeps property) :
    Throwing.Keeps property (action >>= next) := by
  intro tray holds
  have held := first tray holds
  rw [run_bind]
  rcases ran : action.run tray with ⟨fault | value, after⟩
  all_goals rw [ran] at held
  · exact held
  · exact second value after held

variable [Roller σ] {cap : Cap}

theorem rolling_keeps (leaf : ∀ dice : Dice, (dice.throwAll cap).Keeps property) :
    (rolling cap).Related (rolling cap) fun _ action (_ : Throwing σ Int64) =>
      action.Keeps property where
  constant value := .lift (.ok value)
  dice dice _ := leaf dice
  group inner := inner.bind fun value => .lift (.ok value)
  combine operator left right :=
    left.bind fun lhs => right.bind fun rhs => .lift (operator.apply lhs rhs)

theorem Request.rollOn_keeps (leaf : ∀ dice : Dice, (dice.throwAll cap).Keeps property)
    (request : Request) {tray : Tray σ} (holds : property tray) :
    property (request.rollOn cap tray).2 := by
  cases request with
  | roll expression =>
      exact expression.interpret_related (rolling_keeps leaf) tray holds
  | throwOnce dice => exact leaf dice tray holds

/-- What every throw keeps is kept by any requests. -/
theorem Tray.serve_keeps (leaf : ∀ dice : Dice, (dice.throwAll cap).Keeps property)
    (requests : List Request) {tray : Tray σ} (holds : property tray) :
    property (tray.serve cap requests).2 := by
  induction requests generalizing tray with
  | nil => exact holds
  | cons request requests rest => exact rest (request.rollOn_keeps leaf holds)

end Keeping

section Endings

variable [Roller σ]

/-- What can become of a throw: the answer and the tray that is left. -/
inductive Dice.Throw (cap : Cap) (dice : Dice) (tray : Tray (Recorded σ)) :
    Except EvalFault Int64 × Tray (Recorded σ) → Prop where
  | unsound {defect : Dice.Defect} (judged : dice.defect? = some defect) :
      Throw cap dice tray (.error (.invalidDice dice defect), tray)
  | uncountable (sound : dice.defect? = none)
      (wide : 2 ^ 64 ≤ tray.counted + dice.thrown.toNat) :
      Throw cap dice tray (.error .tooManyRolls, tray)
  | refused {limit : Nat} (sound : dice.defect? = none)
      (countable : tray.counted + dice.thrown.toNat < 2 ^ 64) (capped : cap = some limit)
      (above : limit < tray.counted + dice.thrown.toNat) :
      Throw cap dice tray
        (.error .tooManyRolls, { tray with counted := tray.counted + dice.thrown.toNat })
  /-- The faces drawn leave the signed words, perhaps with dice still in hand. -/
  | stopped {after : Tray (Recorded σ)}
      (within : ∀ limit, cap = some limit → tray.counted + dice.thrown.toNat ≤ limit)
      (counted : after.counted = tray.counted + dice.thrown.toNat)
      (drawn : after.source.draws.length ≤ tray.source.draws.length + dice.thrown.toNat) :
      Throw cap dice tray (.error .overflow, after)
  | shown {value : Int64} {after : Tray (Recorded σ)}
      (within : ∀ limit, cap = some limit → tray.counted + dice.thrown.toNat ≤ limit)
      (counted : after.counted = tray.counted + dice.thrown.toNat)
      (drawn : after.source.draws.length = tray.source.draws.length + dice.thrown.toNat) :
      Throw cap dice tray (.ok value, after)

section Counting

variable {count : Nat}

theorem Tray.draw_keeps_counted (sides : UInt64) :
    Throwing.Keeps (fun tray => tray.counted = count)
      (Tray.draw sides : Throwing σ UInt64) := by
  intro tray counted
  by_cases positive : 0 < sides
  · rw [Tray.run_draw positive]
    exact counted
  · rw [Tray.draw, dif_neg positive]
    exact counted

theorem Faces.throwOne_keeps_counted (faces : Faces) :
    Throwing.Keeps (fun tray => tray.counted = count)
      (faces.throwOne : Throwing σ Int64) := by
  cases faces with
  | numbered sides => exact (Tray.draw_keeps_counted sides).bind fun _ => .lift _
  | fudge => exact (Tray.draw_keeps_counted 3).bind fun _ => .lift _

theorem Faces.throwSum_keeps_counted (faces : Faces) (dice : Nat) (sum : Int64) :
    Throwing.Keeps (fun tray => tray.counted = count)
      (faces.throwSum dice sum : Throwing σ Int64) := by
  induction dice generalizing sum with
  | zero => exact .lift (.ok sum)
  | succ dice induction =>
      exact faces.throwOne_keeps_counted.bind fun shown =>
        (Throwing.Keeps.lift (Operator.add.apply sum shown)).bind induction

/-- Drawing does not count. -/
theorem Dice.drawAll_keeps_counted (dice : Dice) :
    Throwing.Keeps (fun tray => tray.counted = count)
      (dice.drawAll : Throwing σ Int64) := by
  cases dice with
  | sum dice faces => exact faces.throwSum_keeps_counted dice.toNat 0
  | middle faces =>
      exact faces.throwOne_keeps_counted.bind fun first =>
        faces.throwOne_keeps_counted.bind fun second =>
          faces.throwOne_keeps_counted.bind fun third =>
            .lift (.ok (middleOf first second third))

end Counting

/-- Dice that the cap lets pass are counted and then drawn, up to an overflow. -/
theorem Dice.throw_drawAll {cap : Cap} {dice : Dice} {tray : Tray (Recorded σ)}
    (sound : dice.defect? = none)
    (within : ∀ limit, cap = some limit → tray.counted + dice.thrown.toNat ≤ limit) :
    dice.Throw cap tray ((dice.drawAll : Throwing (Recorded σ) Int64).run
      { tray with counted := tray.counted + dice.thrown.toNat }) := by
  have counted := dice.drawAll_keeps_counted
    { tray with counted := tray.counted + dice.thrown.toNat } rfl
  have overflows : Throwing.FailsOnly (· = .overflow)
      (dice.drawAll : Throwing (Recorded σ) Int64) := Dice.drawAll_failsOnly sound rfl
  obtain ⟨drawn, added, planned, _, completed⟩ := dice.drawAll_asks
    { tray with counted := tray.counted + dice.thrown.toNat }
  have grown := congrArg List.length added
  rw [List.length_append] at grown
  rcases ran : (dice.drawAll : Throwing (Recorded σ) Int64).run
    { tray with counted := tray.counted + dice.thrown.toNat } with ⟨fault | value, after⟩
  all_goals rw [ran] at counted completed grown
  · cases overflows _ fault (congrArg Prod.fst ran)
    have few : drawn.length ≤ dice.thrown.toNat := by
      simpa using planned.length_le
    exact .stopped within counted (grown ▸ Nat.add_le_add_left few _)
  · have all : drawn.length = dice.thrown.toNat := by
      simpa using congrArg List.length (completed value rfl).1
    exact .shown within counted (all ▸ grown)

/-- Every throw goes in one of these ways. -/
theorem Dice.throw_rollOn (cap : Cap) (dice : Dice) (tray : Tray (Recorded σ)) :
    dice.Throw cap tray (dice.rollOn cap tray) := by
  rw [Dice.rollOn]
  cases judged : dice.defect? with
  | some defect =>
      rw [Dice.run_throwAll_of_unsound judged]
      exact .unsound judged
  | none =>
      rw [Dice.run_throwAll_of_sound judged, run_bind, Tray.run_charge]
      by_cases wide : 2 ^ 64 ≤ tray.counted + dice.thrown.toNat
      · rw [if_pos wide]
        exact .uncountable judged wide
      · rw [if_neg wide]
        cases checked : cap.check (tray.counted + dice.thrown.toNat)
            (fun _ => .tooManyRolls) with
        | error fault =>
            obtain ⟨limit, capped, above, rfl⟩ := Cap.check_eq_error_iff.mp checked
            exact .refused judged (Nat.lt_of_not_le wide) capped above
        | ok _ => exact Dice.throw_drawAll judged (Cap.check_eq_ok_iff.mp checked)

/-- What each ending keeps is kept by the throw. -/
theorem Dice.throwAll_keeps {cap : Cap} {dice : Dice} {property : Tray (Recorded σ) → Prop}
    (kept : ∀ {tray result after}, dice.Throw cap tray (result, after) →
      property tray → property after) :
    Throwing.Keeps property (dice.throwAll cap : Throwing (Recorded σ) Int64) :=
  fun tray => kept (dice.throw_rollOn cap tray)

end Endings

/-- No more dice were drawn than counted, and no more than the limit allows. -/
structure Tray.Covered (limit : Nat) (tray : Tray (Recorded σ)) : Prop where
  counted : tray.source.draws.length ≤ tray.counted
  allowed : tray.source.draws.length ≤ limit

/-- Dice that the limit allows are counted, and no more than these are drawn. -/
theorem Tray.Covered.draw {limit dice : Nat} {tray after : Tray (Recorded σ)}
    (covered : tray.Covered limit) (within : tray.counted + dice ≤ limit)
    (counted : after.counted = tray.counted + dice)
    (drawn : after.source.draws.length ≤ tray.source.draws.length + dice) :
    after.Covered limit := by
  have few : after.source.draws.length ≤ tray.counted + dice :=
    Nat.le_trans drawn (Nat.add_le_add_right covered.counted dice)
  exact ⟨counted ▸ few, Nat.le_trans few within⟩

variable [Roller σ] {limit : Nat}

theorem Dice.throwAll_keeps_covered (limit : Nat) (dice : Dice) :
    Throwing.Keeps (Tray.Covered limit)
      (dice.throwAll (some limit) : Throwing (Recorded σ) Int64) := by
  apply Dice.throwAll_keeps
  intro tray result after goes covered
  cases goes with
  | unsound => exact covered
  | uncountable => exact covered
  | refused =>
      exact ⟨Nat.le_trans covered.counted (Nat.le_add_right _ _), covered.allowed⟩
  | stopped within counted drawn => exact covered.draw (within limit rfl) counted drawn
  | shown within counted drawn =>
      exact covered.draw (within limit rfl) counted (Nat.le_of_eq drawn)

/-- Whatever is asked of a tray, no more is drawn than the cap allows. -/
theorem Tray.serve_covered (requests : List Request) {tray : Tray (Recorded σ)}
    (covered : tray.Covered limit) : (tray.serve (some limit) requests).2.Covered limit :=
  Tray.serve_keeps (Dice.throwAll_keeps_covered limit) requests covered

end DiceOdds
