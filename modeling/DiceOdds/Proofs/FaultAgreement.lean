import DiceOdds.Proofs.Exactness

/-!
# Rolling meets the fault of the distribution

Where a distribution is found no roll fails.  Where it is not, there are draws on
which the roll meets the same fault: unsound dice are refused before they are
drawn, numbered dice that are too many overflow when all of them show their last
faces, and a pair of outcomes that cannot be joined is shown by some draws of
both operands, since the distributions of the operands count what their draws
show.
-/

namespace DiceOdds

/-- Draws for an initial part of the plan on which the action meets the fault,
whatever has been counted before them and whatever is prepared after them. -/
def Throwing.FailsWithin (action : Throwing Prepared Int64) (plan : List UInt64)
    (fault : EvalFault) : Prop :=
  ∃ initial, initial <+: plan ∧ ∃ draws ∈ drawVectors initial,
    ∀ counted rest, counted + plan.length < 2 ^ 64 →
      (action.run ⟨counted, Prepared.mk (draws ++ rest)⟩).1 = .error fault

theorem Dice.failsWithin_of_unsound {dice : Dice} {defect : Dice.Defect}
    (unsound : dice.defect? = some defect) :
    Throwing.FailsWithin (dice.throwAll none) dice.plan
      (.invalidDice dice defect) := by
  refine ⟨[], List.nil_prefix, [], List.mem_singleton_self _, ?_⟩
  intro counted rest _
  have refused : dice.validate = .error (.invalidDice dice defect) := by
    simp only [Dice.validate, unsound]
  simp only [Dice.throwAll, refused, run_bind, Throwing.run_lift]

theorem Dice.failsWithin_of_wide {dice : Dice} {sides : UInt64}
    (numbered : dice.faces = .numbered sides) (sound : dice.defect? = none)
    (wide : 2 ^ 63 ≤ dice.extent) :
    Throwing.FailsWithin (dice.throwAll none) dice.plan .overflow :=
  ⟨dice.plan, List.prefix_rfl, dice.plan, Dice.plan_mem_drawVectors sound,
    fun _ rest fits => Dice.throwAll_overflow numbered sound wide fits rest⟩

/-- The fault of dice is met by throwing them. -/
theorem Dice.failsWithin {dice : Dice} {fault : EvalFault}
    (narrow : dice.faces = .fudge → dice.thrown.toNat < 2 ^ 32)
    (failure : dice.distribution none = .error fault) :
    Throwing.FailsWithin (dice.throwAll none) dice.plan fault := by
  cases defect : dice.defect? with
  | some found =>
      have refused : dice.distribution none = .error (.invalidDice dice found) := by
        simp only [Dice.distribution, Dice.validate, defect]
        rfl
      rw [refused] at failure
      cases failure
      exact Dice.failsWithin_of_unsound defect
  | none =>
      have passed : dice.distribution none = dice.soundDistribution := by
        simp only [Dice.distribution, Dice.validate_of_sound defect]
        rfl
      rw [passed] at failure
      by_cases fits : dice.Fits
      · obtain ⟨distribution, success, _⟩ := Dice.soundDistribution_counts defect fits
        rw [success] at failure
        contradiction
      · rw [Dice.soundDistribution_overflow fits] at failure
        cases failure
        cases faces : dice.faces with
        | fudge =>
            simp only [Dice.Fits, faces] at fits
            exact (fits (narrow faces)).elim
        | numbered sides =>
            simp only [Dice.Fits, faces] at fits
            exact Dice.failsWithin_of_wide faces defect (Nat.not_lt.mp fits)

section Joining

variable {left right : Throwing Prepared Int64} {leftPlan rightPlan : List UInt64}
  {operator : Operator} {fault : EvalFault}

theorem Throwing.FailsWithin.ofLeft
    (fails : Throwing.FailsWithin left leftPlan fault) :
    Throwing.FailsWithin
      (do
        let lhs ← left
        let rhs ← right
        operator.apply lhs rhs)
      (leftPlan ++ rightPlan) fault := by
  obtain ⟨initial, begins, draws, member, failing⟩ := fails
  refine ⟨initial, begins.trans (List.prefix_append _ _), draws, member, ?_⟩
  intro counted rest fits
  rw [List.length_append] at fits
  exact run_bind_fst_of_error (failing counted rest (by omega))

variable {leftValue rightValue : List UInt64 → Int64} {leftDraws rightDraws : List UInt64}

/-- The left operand shows its value, and then the right one fails. -/
theorem Throwing.FailsWithin.ofRight
    (leftFollows : Throwing.Follows left leftPlan leftValue)
    (leftMember : leftDraws ∈ drawVectors leftPlan)
    (fails : Throwing.FailsWithin right rightPlan fault) :
    Throwing.FailsWithin
      (do
        let lhs ← left
        let rhs ← right
        operator.apply lhs rhs)
      (leftPlan ++ rightPlan) fault := by
  obtain ⟨initial, begins, draws, member, failing⟩ := fails
  refine ⟨leftPlan ++ initial, (List.prefix_append_right_inj _).mpr begins,
    leftDraws ++ draws, append_mem_drawVectors leftMember member, ?_⟩
  intro counted rest fits
  rw [List.length_append] at fits
  have failed := failing (counted + leftPlan.length) rest (by omega)
  rw [List.append_assoc, run_bind,
    leftFollows.run_prepared leftMember (by omega)]
  exact run_bind_fst_of_error failed

/-- Both operands show their values, and the operator refuses these. -/
theorem Throwing.FailsWithin.ofJoin
    (leftFollows : Throwing.Follows left leftPlan leftValue)
    (leftMember : leftDraws ∈ drawVectors leftPlan)
    (rightFollows : Throwing.Follows right rightPlan rightValue)
    (rightMember : rightDraws ∈ drawVectors rightPlan)
    (refused : operator.apply (leftValue leftDraws) (rightValue rightDraws) =
      .error fault) :
    Throwing.FailsWithin
      (do
        let lhs ← left
        let rhs ← right
        operator.apply lhs rhs)
      (leftPlan ++ rightPlan) fault := by
  refine ⟨leftPlan ++ rightPlan, List.prefix_rfl, leftDraws ++ rightDraws,
    append_mem_drawVectors leftMember rightMember, ?_⟩
  intro counted rest fits
  rw [List.length_append] at fits
  rw [List.append_assoc, run_bind,
    leftFollows.run_prepared leftMember (by omega)]
  simp only [run_bind]
  rw [rightFollows.run_prepared rightMember (by omega)]
  simp only [Throwing.run_lift, refused]

end Joining

/-- The fault of an operator between two operands is met by rolling them. -/
theorem Distribution.Samples.failsWithin_convolve {lhs rhs : Distribution}
    {leftThrows rightThrows : List Dice}
    {leftRoll rightRoll : (σ : Type) → [Roller σ] → Throwing σ Int64}
    {leftValue rightValue : List UInt64 → Int64} {operator : Operator}
    {fault : EvalFault} (left : lhs.Samples leftThrows leftRoll leftValue)
    (right : rhs.Samples rightThrows rightRoll rightValue)
    (failure : convolve none operator lhs rhs = .error fault) :
    Throwing.FailsWithin
      (do
        let lhs ← leftRoll Prepared
        let rhs ← rightRoll Prepared
        operator.apply lhs rhs)
      ((leftThrows ++ rightThrows).flatMap Dice.plan) fault := by
  obtain ⟨leftResult, leftMember, rightResult, rightMember, refused⟩ :=
    left.counts.exists_fault right.counts failure
  obtain ⟨leftDraws, leftDrawn, rfl⟩ := List.mem_map.mp leftMember
  obtain ⟨rightDraws, rightDrawn, rfl⟩ := List.mem_map.mp rightMember
  rw [List.flatMap_append]
  exact .ofJoin (left.follows Prepared) leftDrawn (right.follows Prepared) rightDrawn
    refused

/-- The sums of Fudge dice are small enough to be computed with. -/
def Dice.AllNarrow (throws : List Dice) : Prop :=
  ∀ count, Dice.sum count .fudge ∈ throws → count.toNat < 2 ^ 32

theorem Dice.AllNarrow.left {first second : List Dice}
    (narrow : Dice.AllNarrow (first ++ second)) : Dice.AllNarrow first :=
  fun count member => narrow count (List.mem_append_left _ member)

theorem Dice.AllNarrow.right {first second : List Dice}
    (narrow : Dice.AllNarrow (first ++ second)) : Dice.AllNarrow second :=
  fun count member => narrow count (List.mem_append_right _ member)

theorem Dice.AllNarrow.thrown {dice : Dice} (narrow : Dice.AllNarrow [dice])
    (fudge : dice.faces = .fudge) : dice.thrown.toNat < 2 ^ 32 := by
  cases dice with
  | sum count faces =>
      cases fudge
      exact narrow count (List.mem_singleton_self _)
  | middle faces =>
      have three : (3 : UInt64).toNat < 2 ^ 32 := by decide
      exact three

/-- The fault of an operator is that of its left operand, or that of its right one
behind any value of the left one, or its own on some values of both. -/
theorem failsWithin_combine {leftThrows rightThrows : List Dice}
    {leftRoll rightRoll : (σ : Type) → [Roller σ] → Throwing σ Int64}
    {operator : Operator} {leftOdds rightOdds : Except EvalFault Distribution}
    {fault : EvalFault}
    (leftSampled : ∀ lhs, leftOdds = .ok lhs →
      ∃ value, lhs.Samples leftThrows leftRoll value)
    (rightSampled : ∀ rhs, rightOdds = .ok rhs →
      ∃ value, rhs.Samples rightThrows rightRoll value)
    (leftFails : leftOdds = .error fault →
      Throwing.FailsWithin (leftRoll Prepared) (leftThrows.flatMap Dice.plan) fault)
    (rightFails : rightOdds = .error fault →
      Throwing.FailsWithin (rightRoll Prepared) (rightThrows.flatMap Dice.plan) fault)
    (failure : (do
      let lhs ← leftOdds
      let rhs ← rightOdds
      Distribution.convolve none operator lhs rhs) = .error fault) :
    Throwing.FailsWithin
      (do
        let lhs ← leftRoll Prepared
        let rhs ← rightRoll Prepared
        operator.apply lhs rhs)
      ((leftThrows ++ rightThrows).flatMap Dice.plan) fault := by
  rcases error_of_bind_error failure with failure | ⟨lhs, leftSuccess, failure⟩
  · rw [List.flatMap_append]
    exact (leftFails failure).ofLeft
  · obtain ⟨leftValue, leftSamples⟩ := leftSampled lhs leftSuccess
    rcases error_of_bind_error failure with failure | ⟨rhs, rightSuccess, failure⟩
    · obtain ⟨leftDraws, leftMember⟩ := exists_mem_drawVectors leftSamples.positive
      rw [List.flatMap_append]
      exact .ofRight (leftSamples.follows Prepared) leftMember (rightFails failure)
    · obtain ⟨rightValue, rightSamples⟩ := rightSampled rhs rightSuccess
      exact leftSamples.failsWithin_convolve rightSamples failure

mutual

/-- The fault for which an expression has no distribution is met by rolling it. -/
theorem Expression.failsWithin {expression : Expression} {fault : EvalFault}
    (narrow : Dice.AllNarrow expression.throws)
    (failure : expression.interpret (exactOdds none) = .error fault) :
    Throwing.FailsWithin (expression.interpret (rolling none)) expression.plan
      fault := by
  cases expression with
  | term single => exact Term.failsWithin narrow failure
  | combine lhs operator rhs =>
      exact failsWithin_combine
        (fun _ => Expression.exists_samples) (fun _ => Term.exists_samples)
        (Expression.failsWithin narrow.left) (Term.failsWithin narrow.right) failure

theorem Term.failsWithin {term : Term} {fault : EvalFault}
    (narrow : Dice.AllNarrow term.throws)
    (failure : term.interpret (exactOdds none) = .error fault) :
    Throwing.FailsWithin (term.interpret (rolling none))
      (term.throws.flatMap Dice.plan) fault := by
  cases term with
  | atom single => exact Atom.failsWithin narrow failure
  | combine lhs operator rhs =>
      exact failsWithin_combine
        (fun _ => Term.exists_samples) (fun _ => Atom.exists_samples)
        (Term.failsWithin narrow.left) (Atom.failsWithin narrow.right) failure

theorem Atom.failsWithin {atom : Atom} {fault : EvalFault}
    (narrow : Dice.AllNarrow atom.throws)
    (failure : atom.interpret (exactOdds none) = .error fault) :
    Throwing.FailsWithin (atom.interpret (rolling none))
      (atom.throws.flatMap Dice.plan) fault := by
  cases atom with
  | constant value => contradiction
  | dice dice lexeme =>
      rw [Atom.throws, List.flatMap_singleton]
      exact Dice.failsWithin (narrow.thrown) failure
  | group inner =>
      rw [Atom.interpret_group_rolling]
      rcases error_of_bind_error failure with failure | ⟨odds, _, grouped⟩
      · exact Expression.failsWithin narrow failure
      · contradiction

end

/-- Without limits an expression has no distribution exactly when some roller
makes a roll of it fail, and whatever fault the distribution has is met by a roll
on faces of the dice, which need not be all dice. -/
theorem Expression.distribution_fails_iff_roll_fails {expression : Expression}
    (countable : expression.plan.length < 2 ^ 64)
    (narrow : Dice.AllNarrow expression.throws) :
    ((∃ fault, expression.distribution .unbounded = .error fault) ↔
      ∃ (σ : Type) (_ : Roller σ) (source : σ) (fault : EvalFault),
        (expression.roll none source).1 = .error fault) ∧
    ∀ fault, expression.distribution .unbounded = .error fault →
      ∃ initial, initial <+: expression.plan ∧ ∃ draws ∈ drawVectors initial,
        (expression.roll none (Prepared.mk draws)).1 = .error fault := by
  have met : ∀ fault, expression.distribution .unbounded = .error fault →
      ∃ initial, initial <+: expression.plan ∧ ∃ draws ∈ drawVectors initial,
        (expression.roll none (Prepared.mk draws)).1 = .error fault := by
    intro fault failure
    obtain ⟨initial, begins, draws, member, failing⟩ :=
      Expression.failsWithin narrow failure
    refine ⟨initial, begins, draws, member, ?_⟩
    have failed := failing 0 [] (by rw [Nat.zero_add]; exact countable)
    rw [List.append_nil] at failed
    exact failed
  refine ⟨?_, met⟩
  constructor
  · intro ⟨fault, failure⟩
    obtain ⟨_, _, draws, _, failed⟩ := met fault failure
    exact ⟨Prepared, inferInstance, Prepared.mk draws, fault, failed⟩
  · intro ⟨σ, roller, source, fault, failed⟩
    cases found : expression.distribution .unbounded with
    | error cause => exact ⟨cause, rfl⟩
    | ok distribution =>
        obtain ⟨value, samples⟩ := Expression.exists_samples found
        rw [samples.roll countable source] at failed
        contradiction

/-- A die over a Fudge die. -/
theorem die_over_fudge_die_fails :
    let expression := Expression.term (.combine
      (.atom (.dice (.sum 1 (.numbered 2)) "1d2")) .div
      (.dice (.sum 1 .fudge) "1dF"))
    expression.distribution .unbounded = .error .divisionByZero ∧
      ∃ initial, initial <+: [2, 3] ∧ ∃ draws ∈ drawVectors initial,
        (expression.roll none (Prepared.mk draws)).1 = .error .divisionByZero := by
  intro expression
  have countable : expression.plan.length < 2 ^ 64 := by decide
  have narrow : Dice.AllNarrow expression.throws := by
    intro count member
    have single : count = 1 := by
      simpa [expression, Expression.throws, Term.throws, Atom.throws] using member
    rw [single]
    decide
  have failure : expression.distribution .unbounded = .error .divisionByZero := by
    decide +kernel
  exact ⟨failure,
    (Expression.distribution_fails_iff_roll_fails countable narrow).2 _ failure⟩

end DiceOdds
