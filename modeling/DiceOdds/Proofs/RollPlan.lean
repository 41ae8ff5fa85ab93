import DiceOdds.Proofs.Attempts
import DiceOdds.Proofs.DrawVectors
import DiceOdds.Proofs.SignedWords
import DiceOdds.Roll.Evaluation

/-!
# Rolling by plan

An action that follows a plan takes from the roller exactly the draws of the
plan, counts them, and shows a value that depends on the faces alone.  Sound
dice whose sum cannot leave the signed words follow their plan; a throw that
can leave them fails when every die shows its last face.
-/

namespace DiceOdds

/-- What a face of a die counts. -/
def Faces.shown : Faces → UInt64 → Int
  | .numbered _, face => face.toNat
  | .fudge, face => face.toNat - 2

/-- What a throw shows on the faces drawn for its dice. -/
def Dice.shown : Dice → List UInt64 → Int64
  | .sum _ faces, draws => Int64.ofInt (draws.map faces.shown).sum
  | .middle faces, [first, second, third] =>
      middleOf (Int64.ofInt (faces.shown first))
        (Int64.ofInt (faces.shown second)) (Int64.ofInt (faces.shown third))
  | .middle _, _ => 0

/-- How far from zero a single die can lie. -/
def Faces.reach : Faces → Nat
  | .numbered sides => sides.toNat
  | .fudge => 1

theorem toNat_three : (3 : UInt64).toNat = 3 :=
  rfl

theorem Faces.shown_bounds {faces : Faces} {face : UInt64}
    (suits : 1 ≤ face ∧ face ≤ faces.outcomes) :
    -(faces.reach : Int) ≤ faces.shown face ∧
      faces.shown face ≤ faces.reach := by
  rw [Face.suits_iff] at suits
  cases faces with
  | numbered sides =>
      simp only [Faces.shown, Faces.reach, Faces.outcomes] at suits ⊢
      omega
  | fudge =>
      have three : Faces.fudge.outcomes.toNat = 3 := toNat_three
      simp only [Faces.shown, Faces.reach]
      omega

section Running

variable {σ : Type}

@[simp] theorem Throwing.run_pure {α : Type} (value : α) (tray : Tray σ) :
    (pure value : Throwing σ α).run tray = (.ok value, tray) :=
  rfl

@[simp] theorem Throwing.run_lift {α : Type} (result : Except EvalFault α)
    (tray : Tray σ) :
    (liftM result : Throwing σ α).run tray = (result, tray) :=
  rfl

/-- What counting does: a count that no word holds is forgotten, any other one is
kept and then held against the cap. -/
theorem Tray.run_charge (cap : Cap) (dice : UInt64) (tray : Tray σ) :
    (Tray.charge cap dice).run tray =
      if 2 ^ 64 ≤ tray.counted + dice.toNat then (.error .tooManyRolls, tray)
      else (cap.check (tray.counted + dice.toNat) fun _ => .tooManyRolls,
        { tray with counted := tray.counted + dice.toNat }) := by
  simp only [Tray.charge, run_bind]
  change (if 2 ^ 64 ≤ tray.counted + dice.toNat then _ else _ : Throwing σ Unit).run
    tray = _
  split <;> rfl

/-- Without a cap dice are only refused when they cannot be counted. -/
theorem Tray.run_charge_none {counted : Nat} {dice : UInt64} (source : σ)
    (fits : counted + dice.toNat < 2 ^ 64) :
    (Tray.charge none dice).run ⟨counted, source⟩ =
      (.ok (), ⟨counted + dice.toNat, source⟩) := by
  have countable : ¬ 2 ^ 64 ≤ counted + dice.toNat := Nat.not_le.mpr fits
  rw [Tray.run_charge, if_neg countable]
  rfl

variable [Roller σ]

theorem Tray.run_draw {sides : UInt64} (positive : 0 < sides) (counted : Nat)
    (source : σ) :
    (Tray.draw sides).run ⟨counted, source⟩ =
      (.ok (Roller.draw sides positive source).1.val,
        ⟨counted, (Roller.draw sides positive source).2⟩) := by
  rw [Tray.draw, dif_pos positive]
  rfl

theorem Faces.run_throwOne {faces : Faces} (positive : 0 < faces.outcomes)
    (counted : Nat) (source : σ) :
    faces.throwOne.run ⟨counted, source⟩ =
      (toWord (faces.shown (Roller.draw faces.outcomes positive source).1.val),
        ⟨counted, (Roller.draw faces.outcomes positive source).2⟩) := by
  cases faces with
  | numbered sides =>
      have sided : 0 < sides := positive
      simp only [Faces.throwOne, run_bind,
        Tray.run_draw sided counted source]
      rfl
  | fudge =>
      have sided : (0 : UInt64) < 3 := positive
      simp only [Faces.throwOne, run_bind,
        Tray.run_draw sided counted source]
      rfl

/-- A sum of dice that cannot leave the signed words is the sum of the faces
drawn.  The bounds leave room for every sum on the way. -/
theorem Faces.run_throwSum {faces : Faces} (positive : 0 < faces.outcomes)
    (dice : Nat) (sum : Int64) (counted : Nat) (source : σ)
    (below : -2 ^ 63 ≤ sum.toInt - dice * faces.reach)
    (above : sum.toInt + dice * faces.reach < 2 ^ 63) :
    (faces.throwSum dice sum).run ⟨counted, source⟩ =
      let answers := Roller.answers (List.replicate dice faces.outcomes) source
      (.ok (Int64.ofInt (sum.toInt + (answers.1.map faces.shown).sum)),
        ⟨counted, answers.2⟩) := by
  induction dice generalizing sum source with
  | zero => simp [Faces.throwSum, Roller.answers]
  | succ dice induction =>
      rcases drawn : Roller.draw faces.outcomes positive source with ⟨face, later⟩
      obtain ⟨lower, upper⟩ := Faces.shown_bounds face.property
      have room : (0 : Int) ≤ dice * faces.reach :=
        Int.mul_nonneg (Int.natCast_nonneg _) (Int.natCast_nonneg _)
      rw [Int.natCast_succ, Int.add_mul, Int.one_mul] at below above
      have shownWord : isWord (faces.shown face.val) := ⟨by omega, by omega⟩
      have sumWord : isWord (sum.toInt + faces.shown face.val) :=
        ⟨by omega, by omega⟩
      have added : Operator.add.apply sum (Int64.ofInt (faces.shown face.val)) =
          .ok (Int64.ofInt (sum.toInt + faces.shown face.val)) := by
        rw [Operator.apply_add, toInt_ofInt_of_isWord shownWord,
          toWord_of_isWord sumWord]
      have sumValue := toInt_ofInt_of_isWord sumWord
      have rest := induction (Int64.ofInt (sum.toInt + faces.shown face.val))
        later (by rw [sumValue]; omega) (by rw [sumValue]; omega)
      rw [List.replicate_succ, Roller.answers_cons positive]
      simp only [Faces.throwSum, run_bind,
        Faces.run_throwOne positive, drawn, toWord_of_isWord shownWord,
        Throwing.run_lift, added, rest, sumValue, List.map_cons, List.sum_cons,
        Int.add_assoc]

theorem Faces.run_throwOne_prepared {faces : Faces} {face : UInt64}
    (suits : 1 ≤ face ∧ face ≤ faces.outcomes) (counted : Nat)
    (rest : List UInt64) :
    faces.throwOne.run ⟨counted, Prepared.mk (face :: rest)⟩ =
      (toWord (faces.shown face), ⟨counted, ⟨rest⟩⟩) := by
  rw [Faces.run_throwOne (Face.sides_positive suits), Prepared.draw_cons _ suits]

/-- A sum of numbered dice that leaves the signed words when every die shows its
last face fails on these faces. -/
theorem Faces.run_throwSum_overflow {sides : UInt64} (positive : 0 < sides)
    (dice : Nat) (sum : Int64) (counted : Nat) (rest : List UInt64)
    (above : 2 ^ 63 ≤ sum.toInt + dice * sides.toNat) :
    (((Faces.numbered sides).throwSum dice sum).run
        ⟨counted, Prepared.mk (List.replicate dice sides ++ rest)⟩).1 =
      .error .overflow := by
  induction dice generalizing sum with
  | zero =>
      have := sum.toInt_lt
      omega
  | succ dice induction =>
      have last : 1 ≤ sides ∧ sides ≤ (Faces.numbered sides).outcomes :=
        Face.last positive
      rw [Int.natCast_succ, Int.add_mul, Int.one_mul] at above
      rw [List.replicate_succ, List.cons_append, Faces.throwSum,
        run_bind, Faces.run_throwOne_prepared last, Faces.shown]
      by_cases shownWord : isWord (sides.toNat : Int)
      · simp only [toWord_of_isWord shownWord, run_bind,
          Throwing.run_lift, Operator.apply_add, toInt_ofInt_of_isWord shownWord]
        by_cases sumWord : isWord (sum.toInt + sides.toNat)
        · simp only [toWord_of_isWord sumWord]
          apply induction
          rw [toInt_ofInt_of_isWord sumWord]
          omega
        · simp only [toWord_of_not_isWord sumWord]
      · simp only [toWord_of_not_isWord shownWord]

theorem Faces.run_throwMiddle {faces : Faces} (positive : 0 < faces.outcomes)
    (room : faces.reach < 2 ^ 63) (counted : Nat) (source : σ) :
    faces.throwMiddle.run ⟨counted, source⟩ =
      let answers := Roller.answers (List.replicate 3 faces.outcomes) source
      (.ok ((Dice.middle faces).shown answers.1), ⟨counted, answers.2⟩) := by
  have shownWord : ∀ face : Face faces.outcomes, isWord (faces.shown face.val) := by
    intro face
    obtain ⟨lower, upper⟩ := Faces.shown_bounds face.property
    exact ⟨by omega, by omega⟩
  simp only [List.replicate, Roller.answers_cons positive, Faces.throwMiddle,
    run_bind, Faces.run_throwOne positive, toWord_of_isWord (shownWord _)]
  rfl

theorem Faces.run_throwMiddle_overflow {sides : UInt64} (positive : 0 < sides)
    (above : 2 ^ 63 ≤ sides.toNat) (counted : Nat) (rest : List UInt64) :
    ((Faces.numbered sides).throwMiddle.run
        ⟨counted, Prepared.mk (List.replicate 3 sides ++ rest)⟩).1 =
      .error .overflow := by
  have last : 1 ≤ sides ∧ sides ≤ (Faces.numbered sides).outcomes :=
    Face.last positive
  have noWord : ¬ isWord (sides.toNat : Int) := by
    rintro ⟨_, upper⟩
    omega
  rw [List.replicate_succ, List.cons_append, Faces.throwMiddle,
    run_bind, Faces.run_throwOne_prepared last, Faces.shown,
    toWord_of_not_isWord noWord]

end Running

/-- How far from zero a throw can lie. -/
def Dice.extent : Dice → Nat
  | .sum count faces => count.toNat * faces.reach
  | .middle faces => faces.reach

theorem Dice.outcomes_positive {dice : Dice} (sound : dice.defect? = none) :
    0 < dice.faces.outcomes := by
  have nonzero : dice.faces.outcomes ≠ 0 := by
    cases dice with
    | sum count faces =>
        simp only [Dice.defect?] at sound
        split at sound
        · contradiction
        · split at sound
          · contradiction
          · assumption
    | middle faces =>
        simp only [Dice.defect?] at sound
        split at sound
        · contradiction
        · assumption
  exact UInt64.pos_iff_ne_zero.mpr nonzero

theorem Dice.validate_of_sound {dice : Dice} (sound : dice.defect? = none) :
    dice.validate = .ok () := by
  simp only [Dice.validate, sound]

section Steps

variable {σ : Type} [Roller σ]

/-- Draws the dice of a throw, which have been judged and counted before. -/
def Dice.drawAll : Dice → Throwing σ Int64
  | .sum count faces => faces.throwSum count.toNat 0
  | .middle faces => faces.throwMiddle

theorem Dice.run_throwAll_of_unsound {dice : Dice} {defect : Dice.Defect}
    (unsound : dice.defect? = some defect) (cap : Cap) (tray : Tray σ) :
    (dice.throwAll cap).run tray = (.error (.invalidDice dice defect), tray) := by
  have refused : dice.validate = .error (.invalidDice dice defect) := by
    simp only [Dice.validate, unsound]
  simp only [Dice.throwAll, refused, run_bind, Throwing.run_lift]

theorem Dice.run_throwAll_of_sound {dice : Dice} (sound : dice.defect? = none)
    (cap : Cap) (tray : Tray σ) :
    (dice.throwAll cap).run tray =
      (do
        Tray.charge cap dice.thrown
        dice.drawAll : Throwing σ Int64).run tray := by
  simp only [Dice.throwAll, Dice.validate_of_sound sound, run_bind, Throwing.run_lift]
  cases dice <;> rfl

end Steps

@[simp] theorem Dice.length_plan (dice : Dice) :
    dice.plan.length = dice.thrown.toNat := by
  simp [Dice.plan]

section Following

variable {σ : Type} [Roller σ]

/-- The action takes the draws of the plan, counts them, and shows the value of
the faces drawn. -/
def Throwing.Follows (action : Throwing σ Int64) (plan : List UInt64)
    (value : List UInt64 → Int64) : Prop :=
  ∀ counted source, counted + plan.length < 2 ^ 64 →
    action.run ⟨counted, source⟩ =
      (.ok (value (Roller.answers plan source).1),
        ⟨counted + plan.length, (Roller.answers plan source).2⟩)

theorem Dice.throwAll_follows {dice : Dice} (sound : dice.defect? = none)
    (room : dice.extent < 2 ^ 63) :
    Throwing.Follows (dice.throwAll none : Throwing σ Int64) dice.plan
      dice.shown := by
  intro counted source fits
  rw [Dice.length_plan] at fits ⊢
  have positive := Dice.outcomes_positive sound
  simp only [Dice.throwAll, Dice.validate_of_sound sound, run_bind,
    Throwing.run_lift, Tray.run_charge_none source fits]
  cases dice with
  | sum count faces =>
      have zero : (0 : Int64).toInt = 0 := rfl
      simp only [Dice.extent, Dice.faces] at room positive
      have summed := Faces.run_throwSum positive count.toNat 0
        (counted + count.toNat) source (by rw [zero]; omega) (by rw [zero]; omega)
      rw [zero] at summed
      simpa [Dice.plan, Dice.shown, Dice.thrown, Dice.faces] using summed
  | middle faces =>
      exact Faces.run_throwMiddle positive room _ source

theorem Dice.plan_positive {dice : Dice} (sound : dice.defect? = none) :
    ∀ sides ∈ dice.plan, 0 < sides := by
  intro sides member
  rw [List.eq_of_mem_replicate member]
  exact Dice.outcomes_positive sound

/-- Two actions in sequence whose values can always be joined. -/
theorem Throwing.Follows.combine {left right : Throwing σ Int64}
    {leftPlan rightPlan : List UInt64} {leftValue rightValue : List UInt64 → Int64}
    {operator : Operator}
    (leftPositive : ∀ sides ∈ leftPlan, 0 < sides)
    (rightPositive : ∀ sides ∈ rightPlan, 0 < sides)
    (leftFollows : Throwing.Follows left leftPlan leftValue)
    (rightFollows : Throwing.Follows right rightPlan rightValue)
    (joins : ∀ leftDraws ∈ drawVectors leftPlan,
      ∀ rightDraws ∈ drawVectors rightPlan,
        ∃ result, operator.apply (leftValue leftDraws) (rightValue rightDraws) =
          .ok result) :
    Throwing.Follows
      (do
        let lhs ← left
        let rhs ← right
        operator.apply lhs rhs)
      (leftPlan ++ rightPlan)
      (fun draws => operator.value (leftValue (draws.take leftPlan.length))
        (rightValue (draws.drop leftPlan.length))) := by
  intro counted source fits
  rw [List.length_append] at fits ⊢
  have leftMember := Roller.answers_mem_drawVectors leftPositive source
  have leftLength := length_of_mem_drawVectors leftMember
  rw [Roller.answers_append leftPositive]
  simp only [run_bind, leftFollows counted source (by omega)]
  rw [rightFollows _ _ (by omega)]
  have rightMember := Roller.answers_mem_drawVectors rightPositive
    (Roller.answers leftPlan source).2
  obtain ⟨result, joined⟩ := joins _ leftMember _ rightMember
  simp only [Throwing.run_lift, joined, List.take_left' leftLength,
    List.drop_left' leftLength, Operator.value_of_apply joined, Nat.add_assoc]

end Following

/-- An action that follows a plan shows the value of the faces prepared for it. -/
theorem Throwing.Follows.run_prepared {action : Throwing Prepared Int64}
    {plan draws : List UInt64} {value : List UInt64 → Int64}
    (follows : Throwing.Follows action plan value)
    (member : draws ∈ drawVectors plan) {counted : Nat}
    (fits : counted + plan.length < 2 ^ 64) (rest : List UInt64) :
    action.run ⟨counted, Prepared.mk (draws ++ rest)⟩ =
      (.ok (value draws), ⟨counted + plan.length, ⟨rest⟩⟩) := by
  rw [follows counted _ fits, Roller.answers_prepared member]

theorem Dice.plan_mem_drawVectors {dice : Dice} (sound : dice.defect? = none) :
    dice.plan ∈ drawVectors dice.plan := by
  rw [mem_drawVectors_iff]
  apply List.forall₂_same.mpr
  intro sides member
  exact Face.last (Dice.plan_positive sound sides member)

/-- A throw of numbered dice that can leave the signed words does so when every
die shows its last face. -/
theorem Dice.throwAll_overflow {dice : Dice} {sides : UInt64}
    (numbered : dice.faces = .numbered sides) (sound : dice.defect? = none)
    (wide : 2 ^ 63 ≤ dice.extent) {counted : Nat}
    (fits : counted + dice.plan.length < 2 ^ 64) (rest : List UInt64) :
    ((dice.throwAll none).run ⟨counted, Prepared.mk (dice.plan ++ rest)⟩).1 =
      .error .overflow := by
  rw [Dice.length_plan] at fits
  have positive := Dice.outcomes_positive sound
  simp only [Dice.throwAll, Dice.validate_of_sound sound, run_bind,
    Throwing.run_lift, Tray.run_charge_none _ fits]
  cases dice with
  | sum count faces =>
      cases numbered
      have zero : (0 : Int64).toInt = 0 := rfl
      simp only [Dice.extent, Faces.reach] at wide
      have sided : 0 < sides := positive
      apply Faces.run_throwSum_overflow sided
      rw [zero]
      omega
  | middle faces =>
      cases numbered
      exact Faces.run_throwMiddle_overflow positive wide _ rest
end DiceOdds
