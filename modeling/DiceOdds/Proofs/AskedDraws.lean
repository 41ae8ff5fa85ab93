import DiceOdds.Proofs.InterpretationInduction
import DiceOdds.Proofs.RollPlan

/-!
# The draws asked of a roller

Every draw of a roll is planned by the dice of its expression.  A roll asks for a
first part of the plan, in order, and for all of it if it gives a value.  What has
been drawn and counted before stays on the tray.
-/

namespace DiceOdds

variable {σ α β : Type}

/-- The numbers of sides that were asked for, in the order of the draws. -/
def Recorded.asked (recorded : Recorded σ) : List UInt64 :=
  recorded.draws.map Prod.fst

/-- The action adds draws to the record, for a first part of the plan, and takes
nothing off the count.  If it gives a value it has drawn the whole plan and counted
so many dice. -/
def Throwing.Asks (action : Throwing (Recorded σ) α) (plan : List UInt64)
    (dice : Nat) : Prop :=
  ∀ tray, ∃ drawn : List (UInt64 × UInt64),
    (action.run tray).2.source.draws = tray.source.draws ++ drawn ∧
    drawn.map Prod.fst <+: plan ∧
    tray.counted ≤ (action.run tray).2.counted ∧
    ∀ value, (action.run tray).1 = .ok value →
      drawn.map Prod.fst = plan ∧ (action.run tray).2.counted = tray.counted + dice

namespace Throwing.Asks

/-- An action that leaves the tray alone asks for nothing. -/
theorem lift (result : Except EvalFault α) :
    Throwing.Asks (liftM result : Throwing (Recorded σ) α) [] 0 := by
  intro tray
  exact ⟨[], (List.append_nil _).symm, List.nil_prefix, Nat.le_refl _, fun _ _ => ⟨rfl, rfl⟩⟩

theorem bind {action : Throwing (Recorded σ) α} {next : α → Throwing (Recorded σ) β}
    {firstPlan secondPlan : List UInt64} {firstDice secondDice : Nat}
    (first : action.Asks firstPlan firstDice)
    (second : ∀ value, (next value).Asks secondPlan secondDice) :
    Throwing.Asks (action >>= next) (firstPlan ++ secondPlan)
      (firstDice + secondDice) := by
  intro tray
  obtain ⟨drawn, added, started, kept, completed⟩ := first tray
  rw [run_bind]
  rcases ran : action.run tray with ⟨fault | value, after⟩
  all_goals rw [ran] at added kept completed
  · refine ⟨drawn, added, started.trans (List.prefix_append _ _), kept, ?_⟩
    intro value absurd
    contradiction
  · obtain ⟨planned, counted⟩ := completed value rfl
    obtain ⟨more, addedMore, startedMore, keptMore, completedMore⟩ := second value after
    refine ⟨drawn ++ more, ?_, ?_, Nat.le_trans kept keptMore, ?_⟩
    · rw [addedMore, added, List.append_assoc]
    · rw [List.map_append, planned]
      exact (List.prefix_append_right_inj _).mpr startedMore
    · intro result success
      obtain ⟨plannedMore, countedMore⟩ := completedMore result success
      rw [List.map_append, planned, plannedMore, countedMore, counted, Nat.add_assoc]
      exact ⟨rfl, rfl⟩

/-- An action that gives a value has asked for the plan and counted its dice. -/
theorem of_ok {action : Throwing (Recorded σ) α} {plan : List UInt64} {dice : Nat}
    (asks : action.Asks plan dice) {tray after : Tray (Recorded σ)} {value : α}
    (ran : action.run tray = (.ok value, after)) :
    after.source.asked = tray.source.asked ++ plan ∧
      after.counted = tray.counted + dice := by
  obtain ⟨drawn, added, _, _, completed⟩ := asks tray
  rw [ran] at added completed
  obtain ⟨planned, counted⟩ := completed value rfl
  refine ⟨?_, counted⟩
  rw [Recorded.asked, added, List.map_append, planned]
  rfl

end Throwing.Asks

section Drawing

variable [Roller σ]

theorem Tray.draw_asks (sides : UInt64) :
    Throwing.Asks (Tray.draw sides : Throwing (Recorded σ) UInt64) [sides] 0 := by
  intro tray
  by_cases positive : 0 < sides
  · rw [Tray.run_draw positive]
    refine ⟨[(sides, (Roller.draw sides positive tray.source.source).1.val)], ?_,
      List.prefix_rfl, Nat.le_refl _, fun _ _ => ⟨rfl, rfl⟩⟩
    exact List.reverse_cons
  · rw [Tray.draw, dif_neg positive]
    refine ⟨[], (List.append_nil _).symm, List.nil_prefix, Nat.le_refl _, ?_⟩
    intro value absurd
    contradiction

theorem Faces.throwOne_asks (faces : Faces) :
    Throwing.Asks (faces.throwOne : Throwing (Recorded σ) Int64) [faces.outcomes] 0 := by
  cases faces with
  | numbered sides => exact (Tray.draw_asks sides).bind fun _ => .lift _
  | fudge => exact (Tray.draw_asks 3).bind fun _ => .lift _

theorem Faces.throwSum_asks (faces : Faces) (dice : Nat) (sum : Int64) :
    Throwing.Asks (faces.throwSum dice sum : Throwing (Recorded σ) Int64)
      (List.replicate dice faces.outcomes) 0 := by
  induction dice generalizing sum with
  | zero => exact .lift (.ok sum)
  | succ dice induction =>
      exact faces.throwOne_asks.bind fun shown =>
        (Throwing.Asks.lift (Operator.add.apply sum shown)).bind induction

theorem Faces.throwMiddle_asks (faces : Faces) :
    Throwing.Asks (faces.throwMiddle : Throwing (Recorded σ) Int64)
      (List.replicate 3 faces.outcomes) 0 :=
  faces.throwOne_asks.bind fun first => faces.throwOne_asks.bind fun second =>
    faces.throwOne_asks.bind fun third =>
      .lift (.ok (middleOf first second third))

theorem Dice.drawAll_asks (dice : Dice) :
    Throwing.Asks (dice.drawAll : Throwing (Recorded σ) Int64) dice.plan 0 := by
  cases dice with
  | sum count faces => exact faces.throwSum_asks count.toNat 0
  | middle faces => exact faces.throwMiddle_asks

end Drawing

theorem Tray.charge_asks (cap : Cap) (dice : UInt64) :
    Throwing.Asks (Tray.charge cap dice : Throwing (Recorded σ) Unit) [] dice.toNat := by
  intro tray
  refine ⟨[], ?_, List.nil_prefix, ?_, ?_⟩
  all_goals rw [Tray.run_charge]
  all_goals split
  · exact (List.append_nil _).symm
  · exact (List.append_nil _).symm
  · exact Nat.le_refl _
  · exact Nat.le_add_right _ _
  · intro value absurd
    contradiction
  · intro value _
    exact ⟨rfl, rfl⟩

variable [Roller σ]

theorem Dice.throwAll_asks (cap : Cap) (dice : Dice) :
    Throwing.Asks (dice.throwAll cap : Throwing (Recorded σ) Int64) dice.plan
      dice.thrown.toNat := by
  cases judged : dice.defect? with
  | some defect =>
      intro tray
      rw [Dice.run_throwAll_of_unsound judged]
      refine ⟨[], (List.append_nil _).symm, List.nil_prefix, Nat.le_refl _, ?_⟩
      intro value absurd
      contradiction
  | none =>
      intro tray
      rw [Dice.run_throwAll_of_sound judged]
      exact (Tray.charge_asks cap dice.thrown).bind (fun _ => dice.drawAll_asks) tray

/-- Number of dice thrown in all. -/
def Dice.thrownInAll (throws : List Dice) : Nat :=
  (throws.map fun dice => dice.thrown.toNat).sum

@[simp] theorem Dice.thrownInAll_nil : Dice.thrownInAll [] = 0 :=
  rfl

@[simp] theorem Dice.thrownInAll_cons (dice : Dice) (throws : List Dice) :
    Dice.thrownInAll (dice :: throws) = dice.thrown.toNat + Dice.thrownInAll throws :=
  List.sum_cons

@[simp] theorem Dice.thrownInAll_append (first second : List Dice) :
    Dice.thrownInAll (first ++ second) =
      Dice.thrownInAll first + Dice.thrownInAll second := by
  simp [Dice.thrownInAll]

theorem rolling_asks (cap : Cap) :
    (rolling cap).Related (rolling cap) fun throws (action _ : Throwing (Recorded σ) Int64) =>
      action.Asks (throws.flatMap Dice.plan) (Dice.thrownInAll throws) where
  constant value := .lift (.ok value)
  dice dice _ := by
    simpa [rolling] using dice.throwAll_asks cap
  group inner := by
    have handedOn := inner.bind fun value => Throwing.Asks.lift (.ok value)
    rw [List.append_nil, Nat.add_zero] at handedOn
    exact handedOn
  combine operator left right := by
    have joined := left.bind fun lhs => right.bind fun rhs =>
      Throwing.Asks.lift (operator.apply lhs rhs)
    simpa [rolling] using joined

theorem Expression.interpret_asks (cap : Cap) (expression : Expression) :
    Throwing.Asks (expression.interpret (rolling cap) : Throwing (Recorded σ) Int64)
      expression.plan (Dice.thrownInAll expression.throws) :=
  expression.interpret_related (rolling_asks cap)

end DiceOdds
