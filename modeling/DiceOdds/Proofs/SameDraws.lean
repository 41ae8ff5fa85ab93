import DiceOdds.Proofs.AskedDraws

/-!
# Rolls on the same draws

Nothing of a roller enters a roll but the faces it shows.  Two rollers, perhaps of
different kinds, that answer a plan with the same draws give the same values and
the same faults to every action that takes its draws from the plan.
-/

namespace DiceOdds

variable {σ τ : Type} [Roller σ] [Roller τ] {α β : Type}

/-- Both rollers answer the plan with the same draws. -/
def Roller.SameAnswers (plan : List UInt64) (source : σ) (other : τ) : Prop :=
  (Roller.answers plan source).1 = (Roller.answers plan other).1

/-- The first draws of a plan are the same, and so are those of the rest of it. -/
theorem Roller.SameAnswers.draw {sides : UInt64} {plan : List UInt64} {source : σ}
    {other : τ} (same : Roller.SameAnswers (sides :: plan) source other)
    (positive : 0 < sides) :
    (Roller.draw sides positive source).1.val = (Roller.draw sides positive other).1.val ∧
      Roller.SameAnswers plan (Roller.draw sides positive source).2
        (Roller.draw sides positive other).2 := by
  rw [Roller.SameAnswers, Roller.answers_cons positive, Roller.answers_cons positive] at same
  exact List.cons.inj same

/-- On trays with the same count, whose rollers answer the plan and whatever follows it
with the same draws, both actions end alike.  If they give a value the trays have the
same count again and the rollers answer what follows with the same draws. -/
def Throwing.Alike (plan : List UInt64) (first : Throwing σ α) (second : Throwing τ α) :
    Prop :=
  ∀ (later : List UInt64) (counted : Nat) (source : σ) (other : τ),
    Roller.SameAnswers (plan ++ later) source other →
    (first.run ⟨counted, source⟩).1 = (second.run ⟨counted, other⟩).1 ∧
    ∀ value, (first.run ⟨counted, source⟩).1 = .ok value →
      (first.run ⟨counted, source⟩).2.counted = (second.run ⟨counted, other⟩).2.counted ∧
      Roller.SameAnswers later (first.run ⟨counted, source⟩).2.source
        (second.run ⟨counted, other⟩).2.source

namespace Throwing.Alike

theorem lift (result : Except EvalFault α) :
    Throwing.Alike [] (liftM result : Throwing σ α) (liftM result : Throwing τ α) :=
  fun _ _ _ _ same => ⟨rfl, fun _ _ => ⟨rfl, same⟩⟩

theorem bind {firstPlan secondPlan : List UInt64} {first : Throwing σ α}
    {second : Throwing τ α} {firstNext : α → Throwing σ β} {secondNext : α → Throwing τ β}
    (alike : Throwing.Alike firstPlan first second)
    (nextAlike : ∀ value, Throwing.Alike secondPlan (firstNext value) (secondNext value)) :
    Throwing.Alike (firstPlan ++ secondPlan) (first >>= firstNext)
      (second >>= secondNext) := by
  intro later counted source other same
  rw [List.append_assoc] at same
  obtain ⟨results, onward⟩ := alike (secondPlan ++ later) counted source other same
  rw [run_bind, run_bind]
  rcases firstRan : first.run ⟨counted, source⟩ with ⟨result, firstAfter⟩
  rcases secondRan : second.run ⟨counted, other⟩ with ⟨otherResult, secondAfter⟩
  rw [firstRan, secondRan] at results onward
  cases results
  cases result with
  | error fault => exact ⟨rfl, fun _ absurd => by contradiction⟩
  | ok value =>
      obtain ⟨counts, ahead⟩ := onward value rfl
      obtain ⟨firstCounted, firstSource⟩ := firstAfter
      obtain ⟨secondCounted, secondSource⟩ := secondAfter
      cases counts
      exact nextAlike value later firstCounted firstSource secondSource ahead

end Throwing.Alike

theorem Tray.draw_alike (sides : UInt64) :
    Throwing.Alike [sides] (Tray.draw sides : Throwing σ UInt64)
      (Tray.draw sides : Throwing τ UInt64) := by
  intro later counted source other same
  by_cases positive : 0 < sides
  · obtain ⟨shown, ahead⟩ := same.draw positive
    rw [Tray.run_draw positive, Tray.run_draw positive]
    exact ⟨congrArg Except.ok shown, fun _ _ => ⟨rfl, ahead⟩⟩
  · rw [Tray.draw, dif_neg positive, Tray.draw, dif_neg positive]
    exact ⟨rfl, fun _ absurd => by contradiction⟩

theorem Faces.throwOne_alike (faces : Faces) :
    Throwing.Alike [faces.outcomes] (faces.throwOne : Throwing σ Int64)
      (faces.throwOne : Throwing τ Int64) := by
  cases faces with
  | numbered sides => exact (Tray.draw_alike sides).bind fun _ => .lift _
  | fudge => exact (Tray.draw_alike 3).bind fun _ => .lift _

theorem Faces.throwSum_alike (faces : Faces) (dice : Nat) (sum : Int64) :
    Throwing.Alike (List.replicate dice faces.outcomes)
      (faces.throwSum dice sum : Throwing σ Int64)
      (faces.throwSum dice sum : Throwing τ Int64) := by
  induction dice generalizing sum with
  | zero => exact .lift (.ok sum)
  | succ dice induction =>
      exact faces.throwOne_alike.bind fun shown =>
        (Throwing.Alike.lift (Operator.add.apply sum shown)).bind induction

theorem Faces.throwMiddle_alike (faces : Faces) :
    Throwing.Alike (List.replicate 3 faces.outcomes)
      (faces.throwMiddle : Throwing σ Int64) (faces.throwMiddle : Throwing τ Int64) :=
  faces.throwOne_alike.bind fun first => faces.throwOne_alike.bind fun second =>
    faces.throwOne_alike.bind fun third => .lift (.ok (middleOf first second third))

theorem Dice.drawAll_alike (dice : Dice) :
    Throwing.Alike dice.plan (dice.drawAll : Throwing σ Int64)
      (dice.drawAll : Throwing τ Int64) := by
  cases dice with
  | sum count faces => exact faces.throwSum_alike count.toNat 0
  | middle faces => exact faces.throwMiddle_alike

theorem Tray.charge_alike (cap : Cap) (dice : UInt64) :
    Throwing.Alike [] (Tray.charge cap dice : Throwing σ Unit)
      (Tray.charge cap dice : Throwing τ Unit) := by
  intro later counted source other same
  rw [Tray.run_charge, Tray.run_charge]
  split
  · exact ⟨rfl, fun _ absurd => by contradiction⟩
  · exact ⟨rfl, fun _ _ => ⟨rfl, same⟩⟩

theorem Dice.throwAll_alike (cap : Cap) (dice : Dice) :
    Throwing.Alike dice.plan (dice.throwAll cap : Throwing σ Int64)
      (dice.throwAll cap : Throwing τ Int64) := by
  cases judged : dice.defect? with
  | some defect =>
      intro later counted source other _
      rw [Dice.run_throwAll_of_unsound judged, Dice.run_throwAll_of_unsound judged]
      exact ⟨rfl, fun _ absurd => by contradiction⟩
  | none =>
      intro later counted source other same
      rw [Dice.run_throwAll_of_sound judged, Dice.run_throwAll_of_sound judged]
      exact (Tray.charge_alike cap dice.thrown).bind (fun _ => dice.drawAll_alike)
        later counted source other same

theorem rolling_alike (cap : Cap) :
    (rolling cap).Related (rolling cap)
      fun throws (first : Throwing σ Int64) (second : Throwing τ Int64) =>
        Throwing.Alike (throws.flatMap Dice.plan) first second where
  constant value := .lift (.ok value)
  dice dice _ := by
    rw [List.flatMap_singleton]
    exact dice.throwAll_alike cap
  group inner := by
    have handedOn := inner.bind fun value => Throwing.Alike.lift (.ok value)
    rw [List.append_nil] at handedOn
    exact handedOn
  combine operator left right := by
    have joined := left.bind fun lhs => right.bind fun rhs =>
      Throwing.Alike.lift (operator.apply lhs rhs)
    rw [List.append_nil, ← List.flatMap_append] at joined
    exact joined

/-- A roll ends alike on all rollers that answer the plan of its dice alike. -/
theorem Expression.roll_eq_of_sameAnswers (cap : Cap) {expression : Expression}
    {source : σ} {other : τ} (same : Roller.SameAnswers expression.plan source other) :
    (expression.roll cap source).1 = (expression.roll cap other).1 := by
  have alike : Throwing.Alike expression.plan
      (expression.interpret (rolling cap) : Throwing σ Int64)
      (expression.interpret (rolling cap) : Throwing τ Int64) :=
    expression.interpret_related (rolling_alike cap)
  rw [← List.append_nil expression.plan] at same
  exact (alike [] 0 source other same).1

end DiceOdds
