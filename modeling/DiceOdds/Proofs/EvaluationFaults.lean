import DiceOdds.Proofs.Exactness
import DiceOdds.Proofs.InterpretationInduction
import DiceOdds.Proofs.RollPlan
import DiceOdds.Session.Desk

/-!
# The faults of evaluation

Evaluation fails because of what the expression asks for: a division by zero, a
number that is no signed word, dice that cannot be thrown, or a limit.  The
breaches that guard its inner working are never reported: a sweep counts ways, so
that its alternating sums are not negative; the middle of three dice falls in as
many ways as three dice do; dice are judged before the first of them is drawn; and
every outcome of a distribution comes about in at least one way.
-/

namespace DiceOdds

/-- What an evaluation can fail with, given the faults that its limits report. -/
inductive EvalFault.Met (refusal : EvalFault → Prop) : EvalFault → Prop where
  | divisionByZero : Met refusal .divisionByZero
  | overflow : Met refusal .overflow
  | invalidDice (dice : Dice) (defect : Dice.Defect) :
      Met refusal (.invalidDice dice defect)
  | refused {fault : EvalFault} : refusal fault → Met refusal fault

/-- A throw of dice is refused. -/
def EvalFault.OfRollCap (fault : EvalFault) : Prop :=
  fault = .tooManyRolls

/-- The work on a distribution is refused. -/
def EvalFault.OfWorkCap (fault : EvalFault) : Prop :=
  ∃ limit, fault = .tooManyCombinations limit

/-- The nesting of an expression is refused, or the work on its distribution. -/
def EvalFault.OfLimits (fault : EvalFault) : Prop :=
  (∃ depth limit, fault = .tooDeep depth limit) ∨ fault.OfWorkCap

/-- Whatever the attempt fails with is among these faults. -/
def FailsOnly {α : Type} (faults : EvalFault → Prop) (attempt : Except EvalFault α) :
    Prop :=
  ∀ fault, attempt = .error fault → faults fault

section Attempts

variable {α β : Type} {faults : EvalFault → Prop}

theorem FailsOnly.ok (value : α) : FailsOnly faults (.ok value) := by
  intro fault failed
  contradiction

theorem FailsOnly.error {fault : EvalFault} (among : faults fault) :
    FailsOnly faults (.error fault : Except EvalFault α) := by
  intro met failed
  cases failed
  exact among

theorem FailsOnly.bind {attempt : Except EvalFault α} {next : α → Except EvalFault β}
    (first : FailsOnly faults attempt) (second : ∀ value, FailsOnly faults (next value)) :
    FailsOnly faults (attempt >>= next) := by
  intro fault failed
  rcases error_of_bind_error failed with failed | ⟨value, _, failed⟩
  · exact first fault failed
  · exact second value fault failed

theorem FailsOnly.map {attempt : Except EvalFault α} (fails : FailsOnly faults attempt)
    (change : α → β) : FailsOnly faults (attempt.map change) := by
  cases attempt with
  | ok value => exact .ok (change value)
  | error fault => exact .error (fails fault rfl)

end Attempts

section Met

variable {refusal : EvalFault → Prop}

theorem EvalFault.Met.mono {wider : EvalFault → Prop} {fault : EvalFault}
    (met : EvalFault.Met refusal fault)
    (implies : ∀ fault, refusal fault → wider fault) : EvalFault.Met wider fault := by
  cases met with
  | divisionByZero => exact .divisionByZero
  | overflow => exact .overflow
  | invalidDice dice defect => exact .invalidDice dice defect
  | refused refused => exact .refused (implies fault refused)

theorem Cap.check_failsOnly {cap : Cap} {amount : Nat} {fault : Nat → EvalFault}
    (refuses : ∀ limit, refusal (fault limit)) :
    FailsOnly (EvalFault.Met refusal) (cap.check amount fault) := by
  intro met failed
  obtain ⟨limit, _, _, rfl⟩ := Cap.check_eq_error_iff.mp failed
  exact .refused (refuses limit)

theorem toWord_failsOnly {faults : EvalFault → Prop} (overflow : faults .overflow)
    (value : Int) : FailsOnly faults (toWord value) := by
  by_cases word : isWord value
  · rw [toWord_of_isWord word]
    exact .ok _
  · rw [toWord_of_not_isWord word]
    exact .error overflow

theorem Operator.apply_failsOnly (operator : Operator) (lhs rhs : Int64) :
    FailsOnly (EvalFault.Met refusal) (operator.apply lhs rhs) := by
  unfold Operator.apply
  split
  · exact .error .divisionByZero
  · exact toWord_failsOnly .overflow _

theorem Dice.validate_failsOnly (dice : Dice) :
    FailsOnly (EvalFault.Met refusal) dice.validate := by
  unfold Dice.validate
  split
  · exact .ok _
  · exact .error (.invalidDice _ _)

end Met

/-- A join meets the fault of an operator or its cap. -/
theorem Distribution.convolve_failsOnly (cap : Cap) (operator : Operator)
    (lhs rhs : Distribution) :
    FailsOnly (EvalFault.Met EvalFault.OfWorkCap)
      (Distribution.convolve cap operator lhs rhs) := by
  apply FailsOnly.bind
  · exact Cap.check_failsOnly fun limit => ⟨limit, rfl⟩
  · intro _ fault failed
    have uncapped : Distribution.convolve none operator lhs rhs = .error fault := failed
    obtain ⟨_, _, _, _, refused⟩ := Distribution.exists_fault_of_convolve uncapped
    exact operator.apply_failsOnly _ _ fault refused

/-- Sound dice have a distribution, or they overflow. -/
theorem Dice.soundDistribution_failsOnly {dice : Dice} (sound : dice.defect? = none) :
    FailsOnly (EvalFault.Met EvalFault.OfWorkCap) dice.soundDistribution := by
  by_cases fits : dice.Fits
  · obtain ⟨distribution, success, _⟩ := Dice.soundDistribution_counts sound fits
    rw [success]
    exact .ok _
  · rw [Dice.soundDistribution_overflow fits]
    exact .error .overflow

theorem Dice.distribution_failsOnly (cap : Cap) (dice : Dice) :
    FailsOnly (EvalFault.Met EvalFault.OfWorkCap) (dice.distribution cap) := by
  cases defect : dice.defect? with
  | some found =>
      have refused : dice.distribution cap = .error (.invalidDice dice found) := by
        simp only [Dice.distribution, Dice.validate, defect]
        rfl
      rw [refused]
      exact .error (.invalidDice _ _)
  | none =>
      refine (Dice.validate_failsOnly dice).bind fun _ => ?_
      refine (Cap.check_failsOnly fun limit => ⟨limit, rfl⟩).bind fun _ => ?_
      exact Dice.soundDistribution_failsOnly defect

theorem exactOdds_failsOnly (cap : Cap) :
    (exactOdds cap).Related (exactOdds cap) fun _ attempt _ =>
      FailsOnly (EvalFault.Met EvalFault.OfWorkCap) attempt where
  constant _ := .ok _
  dice dice _ := dice.distribution_failsOnly cap
  group inner := inner.bind fun _ => .ok _
  combine operator left right :=
    left.bind fun lhs => right.bind fun rhs =>
      Distribution.convolve_failsOnly cap operator lhs rhs

theorem Expression.distribution_failsOnly (limits : Limits) (expression : Expression) :
    FailsOnly (EvalFault.Met EvalFault.OfLimits) (expression.distribution limits) := by
  apply FailsOnly.bind
  · exact Cap.check_failsOnly fun limit => .inl ⟨_, limit, rfl⟩
  · intro _ fault failed
    have met := expression.interpret_related (exactOdds_failsOnly limits.maxCombinations)
      fault failed
    exact met.mono fun _ refused => .inr refused

/-- Whatever is on the tray, the action fails only with these faults. -/
def Throwing.FailsOnly {σ α : Type} (faults : EvalFault → Prop) (action : Throwing σ α) :
    Prop :=
  ∀ tray, DiceOdds.FailsOnly faults (action.run tray).1

section Actions

variable {σ α β : Type} {faults : EvalFault → Prop}

theorem Throwing.FailsOnly.lift {attempt : Except EvalFault α}
    (fails : DiceOdds.FailsOnly faults attempt) :
    Throwing.FailsOnly faults (liftM attempt : Throwing σ α) :=
  fun _ => fails

theorem Throwing.FailsOnly.pure (value : α) :
    Throwing.FailsOnly faults (Pure.pure value : Throwing σ α) :=
  fun _ => .ok value

theorem Throwing.FailsOnly.bind {action : Throwing σ α} {next : α → Throwing σ β}
    (first : Throwing.FailsOnly faults action)
    (second : ∀ value, Throwing.FailsOnly faults (next value)) :
    Throwing.FailsOnly faults (action >>= next) := by
  intro tray fault failed
  rw [run_bind] at failed
  rcases ran : action.run tray with ⟨cause | value, after⟩
  · rw [ran] at failed
    cases failed
    exact first tray fault (congrArg Prod.fst ran)
  · rw [ran] at failed
    exact second value after fault failed

end Actions

section Throwing

variable {σ : Type}

theorem Tray.charge_failsOnly (cap : Cap) (dice : UInt64) :
    Throwing.FailsOnly (EvalFault.Met EvalFault.OfRollCap)
      (Tray.charge cap dice : Throwing σ Unit) := by
  intro tray
  rw [Tray.run_charge]
  split
  · exact .error (.refused rfl)
  · exact Cap.check_failsOnly fun _ => rfl

variable [Roller σ] {faults : EvalFault → Prop}

theorem Tray.draw_failsOnly {sides : UInt64} (positive : 0 < sides) :
    Throwing.FailsOnly faults (Tray.draw sides : Throwing σ UInt64) := by
  intro tray
  rw [Tray.run_draw positive]
  exact .ok _

theorem Faces.throwOne_failsOnly {faces : Faces} (positive : 0 < faces.outcomes)
    (overflow : faults .overflow) :
    Throwing.FailsOnly faults (faces.throwOne : Throwing σ Int64) := by
  cases faces with
  | numbered sides =>
      exact (Tray.draw_failsOnly positive).bind fun _ => .lift (toWord_failsOnly overflow _)
  | fudge =>
      exact (Tray.draw_failsOnly positive).bind fun _ => .lift (toWord_failsOnly overflow _)

theorem Faces.throwSum_failsOnly {faces : Faces} (positive : 0 < faces.outcomes)
    (overflow : faults .overflow) (dice : Nat) (sum : Int64) :
    Throwing.FailsOnly faults (faces.throwSum dice sum : Throwing σ Int64) := by
  induction dice generalizing sum with
  | zero => exact .pure sum
  | succ dice induction =>
      refine (Faces.throwOne_failsOnly positive overflow).bind fun shown => ?_
      have added : FailsOnly faults (Operator.add.apply sum shown) := by
        rw [Operator.apply_add]
        exact toWord_failsOnly overflow _
      exact (Throwing.FailsOnly.lift added).bind induction

theorem Faces.throwMiddle_failsOnly {faces : Faces} (positive : 0 < faces.outcomes)
    (overflow : faults .overflow) :
    Throwing.FailsOnly faults (faces.throwMiddle : Throwing σ Int64) := by
  have one : Throwing.FailsOnly faults (faces.throwOne : Throwing σ Int64) :=
    Faces.throwOne_failsOnly positive overflow
  exact one.bind fun _ => one.bind fun _ => one.bind fun _ => .pure _

/-- Sound dice have faces, so drawing them can only overflow. -/
theorem Dice.drawAll_failsOnly {dice : Dice} (sound : dice.defect? = none)
    (overflow : faults .overflow) :
    Throwing.FailsOnly faults (dice.drawAll : Throwing σ Int64) := by
  have positive := Dice.outcomes_positive sound
  cases dice with
  | sum count faces => exact Faces.throwSum_failsOnly positive overflow _ _
  | middle faces => exact Faces.throwMiddle_failsOnly positive overflow

/-- Dice that are drawn have faces, because they have been judged before. -/
theorem Dice.throwAll_failsOnly (cap : Cap) (dice : Dice) :
    Throwing.FailsOnly (EvalFault.Met EvalFault.OfRollCap)
      (dice.throwAll cap : Throwing σ Int64) := by
  intro tray
  cases defect : dice.defect? with
  | some found =>
      rw [Dice.run_throwAll_of_unsound defect]
      exact .error (.invalidDice _ _)
  | none =>
      rw [Dice.run_throwAll_of_sound defect]
      exact ((Tray.charge_failsOnly cap dice.thrown).bind fun _ =>
        Dice.drawAll_failsOnly defect .overflow) tray

theorem rolling_failsOnly (cap : Cap) :
    Interpretation.Related (rolling cap) (rolling cap) fun _ (action _ : Throwing σ Int64) =>
      Throwing.FailsOnly (EvalFault.Met EvalFault.OfRollCap) action where
  constant value := .pure value
  dice dice _ := dice.throwAll_failsOnly cap
  group inner := inner.bind fun _ => .pure _
  combine operator left right :=
    left.bind fun lhs => right.bind fun rhs => .lift (operator.apply_failsOnly lhs rhs)

theorem Expression.rollOn_failsOnly (cap : Cap) (expression : Expression)
    (tray : Tray σ) :
    FailsOnly (EvalFault.Met EvalFault.OfRollCap) (expression.rollOn cap tray).1 :=
  expression.interpret_related (rolling_failsOnly cap) tray

end Throwing

section Ways

/-- Outcomes that are counted with a positive weight come about in some way. -/
theorem Distribution.Counts.entries_positive {distribution : Distribution}
    {weight : Nat} {results : List Int64}
    (counts : distribution.Counts weight results) (positive : 0 < weight)
    {entry : Int64 × Nat} (member : entry ∈ distribution.entries) : 0 < entry.2 := by
  obtain ⟨listed, counted⟩ := counts.mem_entries_iff.mp member
  rw [counted]
  exact Nat.mul_pos positive (List.count_pos_iff.mpr listed)

/-- A distribution that is found has outcomes, all of them with ways, and odds. -/
theorem Expression.distribution_positive {limits : Limits} {expression : Expression}
    {distribution : Distribution}
    (success : expression.distribution limits = .ok distribution) :
    distribution.entries ≠ [] ∧ (∀ entry ∈ distribution.entries, 0 < entry.2) ∧
      ∃ odds, Odds.ofDistribution distribution = .ok odds := by
  obtain ⟨value, samples⟩ :=
    Expression.exists_samples (Expression.interpret_of_distribution success)
  have total := samples.total_positive
  refine ⟨?_, ?_, _, Odds.ofDistribution_of_total total⟩
  · intro empty
    simp [Distribution.total, empty] at total
  · intro entry member
    exact samples.counts.entries_positive (Nat.two_pow_pos _) member

/-- Odds are missing exactly where the distribution is, and for the same cause. -/
theorem Expression.odds_eq_error_iff {limits : Limits} {expression : Expression}
    {fault : EvalFault} :
    expression.odds limits = .error fault ↔
      expression.distribution limits = .error fault := by
  cases found : expression.distribution limits with
  | error cause =>
      have failed : expression.odds limits = .error cause := by
        rw [Expression.odds, found]
        rfl
      simp [failed]
  | ok distribution =>
      obtain ⟨_, _, odds, computed⟩ := Expression.distribution_positive found
      rw [Expression.odds, found, ok_bind, computed]
      simp

/-- The odds of an expression are its distribution, seen as a table. -/
theorem Expression.odds_eq_ok_iff {limits : Limits} {expression : Expression}
    {odds : Odds} :
    expression.odds limits = .ok odds ↔
      expression.distribution limits = .ok odds.distribution := by
  constructor
  · intro computed
    obtain ⟨distribution, found, tabled⟩ := exists_of_bind_ok computed
    rw [found, Odds.distribution_of_ofDistribution tabled]
  · intro found
    rw [Expression.odds, found, ok_bind]
    exact Odds.ofDistribution_of_total odds.total_positive

end Ways

/-- A fault that is no breach. -/
def EvalFault.Ordinary (fault : EvalFault) : Prop :=
  ∀ cause, fault ≠ .breach cause

theorem EvalFault.Met.ordinary {refusal : EvalFault → Prop} {fault : EvalFault}
    (met : EvalFault.Met refusal fault)
    (limits : ∀ cause, ¬ refusal (.breach cause)) : fault.Ordinary := by
  rintro cause rfl
  cases met with
  | refused refused => exact limits cause refused

theorem FailsOnly.ordinary {α : Type} {refusal : EvalFault → Prop}
    {attempt : Except EvalFault α} (fails : FailsOnly (EvalFault.Met refusal) attempt)
    (limits : ∀ cause, ¬ refusal (.breach cause)) :
    FailsOnly EvalFault.Ordinary attempt :=
  fun fault failed => (fails fault failed).ordinary limits

theorem Expression.distribution_ordinary (limits : Limits) (expression : Expression) :
    FailsOnly EvalFault.Ordinary (expression.distribution limits) := by
  apply (expression.distribution_failsOnly limits).ordinary
  rintro cause (⟨_, _, absurd⟩ | ⟨_, absurd⟩)
  · contradiction
  · contradiction

theorem Dice.distribution_ordinary (cap : Cap) (dice : Dice) :
    FailsOnly EvalFault.Ordinary (dice.distribution cap) := by
  apply (dice.distribution_failsOnly cap).ordinary
  rintro cause ⟨_, absurd⟩
  contradiction

theorem EvalFault.OfRollCap.not_breach (cause : Breach) :
    ¬ EvalFault.OfRollCap (.breach cause) := by
  intro absurd
  contradiction

theorem Expression.odds_ordinary (limits : Limits) (expression : Expression) :
    FailsOnly EvalFault.Ordinary (expression.odds limits) := by
  intro fault failed
  exact expression.distribution_ordinary limits fault (Expression.odds_eq_error_iff.mp failed)

/-- What the reply reports of an evaluation is among these faults. -/
def Reply.FailsOnly (faults : EvalFault → Prop) : Reply → Prop
  | .done => True
  | .rolled result => DiceOdds.FailsOnly faults result
  | .rolledMany results => DiceOdds.FailsOnly faults results
  | .calculated result => DiceOdds.FailsOnly faults result

section Sessions

variable {σ : Type} [Roller σ]

theorem Session.roll_ordinary (session : Session σ) :
    FailsOnly EvalFault.Ordinary session.roll.1 :=
  (Expression.rollOn_failsOnly _ session.expression _).ordinary
    EvalFault.OfRollCap.not_breach

theorem Session.rollMany_ordinary (rolls : Nat) (session : Session σ) :
    FailsOnly EvalFault.Ordinary (Session.rollMany rolls session).1 := by
  induction rolls generalizing session with
  | zero => exact .ok []
  | succ rolls induction =>
      have first := session.roll_ordinary
      rw [Session.rollMany]
      rcases rolled : session.roll with ⟨fault | value, after⟩
      · rw [rolled] at first
        exact .error (first fault rfl)
      · exact (induction after).map _

theorem Desk.perform_ordinary (desk : Desk σ) (action : Action) :
    (desk.perform action).1.FailsOnly EvalFault.Ordinary := by
  cases action with
  | setLimits limits => trivial
  | roll => exact desk.session.roll_ordinary
  | rollMany rolls => exact desk.session.rollMany_ordinary rolls
  | calculate =>
      change FailsOnly _ desk.session.calculate.1
      rw [Session.calculate_fst]
      exact Expression.odds_ordinary _ _
  | save => trivial
  | swap =>
      rw [Desk.perform]
      split
      · trivial
      · trivial

theorem Desk.run_ordinary (desk : Desk σ) (actions : List Action) :
    ∀ reply ∈ (desk.run actions).1, reply.FailsOnly EvalFault.Ordinary := by
  induction actions generalizing desk with
  | nil =>
      intro reply absurd
      contradiction
  | cons action actions rest =>
      intro reply member
      rcases List.mem_cons.mp member with rfl | later
      · exact desk.perform_ordinary action
      · exact rest _ reply later

end Sessions

/-- No evaluation reports a breach: neither a distribution, of an expression or of
dice, nor a roll or a throw, whatever is on the tray, nor any action at a desk.  A
distribution that is found has outcomes, each of them with at least one way, and so
it has odds; and a session has no odds exactly when its expression has no
distribution. -/
theorem breaches_unreachable :
    (∀ limits expression,
      FailsOnly EvalFault.Ordinary (Expression.distribution limits expression)) ∧
    (∀ cap dice, FailsOnly EvalFault.Ordinary (Dice.distribution cap dice)) ∧
    (∀ {σ : Type} [Roller σ] cap (tray : Tray σ),
      (∀ expression, FailsOnly EvalFault.Ordinary (Expression.rollOn cap expression tray).1) ∧
      ∀ dice, FailsOnly EvalFault.Ordinary (Dice.rollOn cap dice tray).1) ∧
    (∀ limits expression distribution,
      Expression.distribution limits expression = .ok distribution →
        distribution.entries ≠ [] ∧ (∀ entry ∈ distribution.entries, 0 < entry.2) ∧
          ∃ odds, Odds.ofDistribution distribution = .ok odds) ∧
    (∀ {σ : Type} [Roller σ] (desk : Desk σ) actions,
      let (replies, reached) := desk.run actions
      (∀ reply ∈ replies, reply.FailsOnly EvalFault.Ordinary) ∧
      ∀ fault, reached.session.calculate.1 = .error fault ↔
        reached.session.expression.distribution reached.session.limits =
          .error fault) := by
  refine ⟨Expression.distribution_ordinary, Dice.distribution_ordinary, ?_, ?_, ?_⟩
  · intro σ _ cap tray
    constructor
    · intro expression
      exact (expression.rollOn_failsOnly cap tray).ordinary EvalFault.OfRollCap.not_breach
    · intro dice
      exact (dice.throwAll_failsOnly cap tray).ordinary EvalFault.OfRollCap.not_breach
  · intro limits expression distribution success
    exact Expression.distribution_positive success
  · intro σ _ desk actions
    refine ⟨desk.run_ordinary actions, ?_⟩
    intro fault
    rw [Session.calculate_fst]
    exact Expression.odds_eq_error_iff

/-- The middle of three dice minus two Fudge dice has outcomes, all of them with
ways. -/
theorem middle_minus_fudge_dice_come_about :
    let expression := Expression.combine
      (.term (.atom (.dice (.middle (.numbered 6)) "mid6"))) .sub
      (.atom (.dice (.sum 2 .fudge) "2dF"))
    ∃ distribution, expression.distribution .standard = .ok distribution ∧
      distribution.entries ≠ [] ∧ ∀ entry ∈ distribution.entries, 0 < entry.2 := by
  intro expression
  cases success : expression.distribution .standard with
  | error fault =>
      have absurd : (expression.distribution .standard).isOk = true := by
        decide +kernel
      rw [success] at absurd
      contradiction
  | ok distribution =>
      obtain ⟨_, _, _, found, _⟩ := breaches_unreachable
      obtain ⟨outcomes, ways, _⟩ := found .standard expression distribution success
      exact ⟨distribution, rfl, outcomes, ways⟩

end DiceOdds
