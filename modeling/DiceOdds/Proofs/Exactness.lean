import DiceOdds.Odds
import DiceOdds.Proofs.ThrowCount

/-!
# Distributions count rolls

An expression is sampled by a distribution when a roll of it follows the plan of
its dice and the distribution counts what the draw vectors of that plan show.
Constants and sound dice are sampled by their distributions, and so is an
operator between two sampled operands: their dice are drawn one after the other,
which pairs every draw vector of the left plan with every one of the right plan.
-/

namespace DiceOdds

/-- How many Fudge dice are thrown. -/
def Expression.fudgeDice (expression : Expression) : Nat :=
  (expression.throws.map Dice.fudgeDice).sum

/-- A roll of the dice follows their plan and shows a value of the draws; the
distribution counts the values of all draw vectors, with two ways for each
Fudge die. -/
structure Distribution.Samples (distribution : Distribution) (throws : List Dice)
    (roll : (σ : Type) → [Roller σ] → Throwing σ Int64)
    (value : List UInt64 → Int64) : Prop where
  positive : ∀ sides ∈ throws.flatMap Dice.plan, 0 < sides
  follows : ∀ (σ : Type) [Roller σ],
    Throwing.Follows (roll σ) (throws.flatMap Dice.plan) value
  counts : distribution.Counts (2 ^ (throws.map Dice.fudgeDice).sum)
    ((drawVectors (throws.flatMap Dice.plan)).map value)

/-- A certain outcome takes no draws. -/
theorem Distribution.Samples.singleton (constant : Int64) :
    Samples (.singleton constant) [] (fun _ _ => pure constant)
      fun _ => constant := by
  constructor
  · intro sides member
    contradiction
  · intro σ _ counted source _
    rfl
  · apply counts_of_frequency?
    intro query ways
    rw [Distribution.singleton, frequency?_put]
    by_cases same : constant = query
    · simp [same, drawVectors, eq_comm]
    · simp [same, drawVectors, Ne.symm same]

theorem Distribution.Samples.dice {dice : Dice} (sound : dice.defect? = none)
    {distribution : Distribution}
    (success : dice.soundDistribution = .ok distribution) :
    Samples distribution [dice] (fun _ _ => dice.throwAll none) dice.shown := by
  obtain ⟨fits, counts⟩ := Dice.counts_of_soundDistribution sound success
  constructor
  · simpa using Dice.plan_positive sound
  · intro σ _
    simpa using Dice.throwAll_follows sound (Dice.extent_of_fits fits)
  · simpa [Dice.results] using counts

/-- What an operator gives on the draws of both of its operands. -/
def joinValue (operator : Operator) (dice : Nat)
    (left right : List UInt64 → Int64) (draws : List UInt64) : Int64 :=
  operator.value (left (draws.take dice)) (right (draws.drop dice))

theorem map_joinValue_drawVectors (operator : Operator) (first second : List UInt64)
    (left right : List UInt64 → Int64) :
    (drawVectors (first ++ second)).map
        (joinValue operator first.length left right) =
      ((drawVectors first).map left).flatMap fun leftResult =>
        ((drawVectors second).map right).map fun rightResult =>
          operator.value leftResult rightResult := by
  rw [drawVectors_append, List.map_flatMap, List.flatMap_map]
  apply List.flatMap_congr
  intro draws member
  have length := length_of_mem_drawVectors member
  simp only [List.map_map]
  apply List.map_congr_left
  intro later _
  simp only [Function.comp_apply, joinValue, List.take_left' length,
    List.drop_left' length]

theorem Distribution.Samples.combine {lhs rhs joined : Distribution}
    {leftThrows rightThrows : List Dice}
    {leftRoll rightRoll : (σ : Type) → [Roller σ] → Throwing σ Int64}
    {leftValue rightValue : List UInt64 → Int64} {operator : Operator}
    (left : lhs.Samples leftThrows leftRoll leftValue)
    (right : rhs.Samples rightThrows rightRoll rightValue)
    (success : convolve none operator lhs rhs = .ok joined) :
    joined.Samples (leftThrows ++ rightThrows)
      (fun σ _ => do
        let lhs ← leftRoll σ
        let rhs ← rightRoll σ
        operator.apply lhs rhs)
      (joinValue operator (leftThrows.flatMap Dice.plan).length leftValue
        rightValue) := by
  have joins := left.counts.apply_ok right.counts success
  constructor
  · intro sides member
    rw [List.flatMap_append, List.mem_append] at member
    exact member.elim (left.positive sides) (right.positive sides)
  · intro σ _
    rw [List.flatMap_append]
    apply Throwing.Follows.combine left.positive right.positive (left.follows σ)
      (right.follows σ)
    intro leftDraws leftMember rightDraws rightMember
    exact joins _ (List.mem_map_of_mem leftMember) _ (List.mem_map_of_mem rightMember)
  · rw [List.map_append, List.sum_append, Nat.pow_add, List.flatMap_append,
      map_joinValue_drawVectors]
    exact left.counts.convolve right.counts success

theorem Dice.distribution_ok {cap : Cap} {dice : Dice} {distribution : Distribution}
    (success : dice.distribution cap = .ok distribution) :
    dice.defect? = none ∧ dice.soundDistribution = .ok distribution := by
  obtain ⟨_, valid, success⟩ := exists_of_bind_ok success
  obtain ⟨_, _, success⟩ := exists_of_bind_ok success
  refine ⟨?_, success⟩
  cases defect : dice.defect? with
  | none => rfl
  | some found =>
      simp only [Dice.validate, defect] at valid
      contradiction

theorem Atom.interpret_group_rolling {σ : Type} [Roller σ] (cap : Cap)
    (inner : Expression) :
    (Atom.group inner).interpret (rolling cap) =
      (inner.interpret (rolling cap) : Throwing σ Int64) := by
  rw [Atom.interpret]
  exact bind_pure _

/-- An operator is sampled if its operands are, whatever the cap on its pairs. -/
theorem exists_samples_combine {leftThrows rightThrows : List Dice}
    {leftRoll rightRoll : (σ : Type) → [Roller σ] → Throwing σ Int64} {cap : Cap}
    {operator : Operator} {leftOdds rightOdds : Except EvalFault Distribution}
    {joined : Distribution}
    (leftSampled : ∀ lhs, leftOdds = .ok lhs →
      ∃ value, lhs.Samples leftThrows leftRoll value)
    (rightSampled : ∀ rhs, rightOdds = .ok rhs →
      ∃ value, rhs.Samples rightThrows rightRoll value)
    (success : (do
      let lhs ← leftOdds
      let rhs ← rightOdds
      Distribution.convolve cap operator lhs rhs) = .ok joined) :
    ∃ value, joined.Samples (leftThrows ++ rightThrows)
      (fun σ _ => do
        let lhs ← leftRoll σ
        let rhs ← rightRoll σ
        operator.apply lhs rhs) value := by
  obtain ⟨lhs, leftSuccess, success⟩ := exists_of_bind_ok success
  obtain ⟨rhs, rightSuccess, success⟩ := exists_of_bind_ok success
  obtain ⟨leftValue, leftSamples⟩ := leftSampled lhs leftSuccess
  obtain ⟨rightValue, rightSamples⟩ := rightSampled rhs rightSuccess
  exact ⟨_, leftSamples.combine rightSamples (Distribution.convolve_of_cap success)⟩

mutual

/-- The distribution of an expression samples it. -/
theorem Expression.exists_samples {cap : Cap} {expression : Expression}
    {distribution : Distribution}
    (success : expression.interpret (exactOdds cap) = .ok distribution) :
    ∃ value, distribution.Samples expression.throws
      (fun _ _ => expression.interpret (rolling none)) value := by
  cases expression with
  | term single => exact Term.exists_samples success
  | combine lhs operator rhs =>
      apply exists_samples_combine _ _ success
      · exact fun _ => Expression.exists_samples
      · exact fun _ => Term.exists_samples

theorem Term.exists_samples {cap : Cap} {term : Term}
    {distribution : Distribution}
    (success : term.interpret (exactOdds cap) = .ok distribution) :
    ∃ value, distribution.Samples term.throws
      (fun _ _ => term.interpret (rolling none)) value := by
  cases term with
  | atom single => exact Atom.exists_samples success
  | combine lhs operator rhs =>
      apply exists_samples_combine _ _ success
      · exact fun _ => Term.exists_samples
      · exact fun _ => Atom.exists_samples

theorem Atom.exists_samples {cap : Cap} {atom : Atom}
    {distribution : Distribution}
    (success : atom.interpret (exactOdds cap) = .ok distribution) :
    ∃ value, distribution.Samples atom.throws
      (fun _ _ => atom.interpret (rolling none)) value := by
  cases atom with
  | constant value =>
      cases success
      exact ⟨_, .singleton value⟩
  | dice dice lexeme =>
      obtain ⟨sound, success⟩ := Dice.distribution_ok success
      exact ⟨_, .dice sound success⟩
  | group inner =>
      obtain ⟨odds, innerSuccess, grouped⟩ := exists_of_bind_ok success
      cases grouped
      obtain ⟨value, samples⟩ := Expression.exists_samples innerSuccess
      refine ⟨value, samples.positive, ?_, samples.counts⟩
      intro σ _
      rw [Atom.interpret_group_rolling]
      exact samples.follows σ

end

theorem Expression.interpret_of_distribution {limits : Limits}
    {expression : Expression} {distribution : Distribution}
    (success : expression.distribution limits = .ok distribution) :
    expression.interpret (exactOdds limits.maxCombinations) = .ok distribution := by
  obtain ⟨_, _, interpreted⟩ := exists_of_bind_ok success
  exact interpreted

/-- A roll of a sampled expression is decided by the answers to its plan. -/
theorem Distribution.Samples.roll {distribution : Distribution}
    {expression : Expression} {value : List UInt64 → Int64}
    (samples : distribution.Samples expression.throws
      (fun _ _ => expression.interpret (rolling none)) value)
    (countable : expression.plan.length < 2 ^ 64) {σ : Type} [Roller σ] (source : σ) :
    expression.roll none source =
      let answers := Roller.answers expression.plan source
      (.ok (value answers.1), answers.2) := by
  have rolled := samples.follows σ 0 source (by rw [Nat.zero_add]; exact countable)
  simp only [Expression.roll, Expression.rollOn, Tray.fresh, rolled]
  rfl

/-- How many equally likely ways a die can fall.  A Fudge die is a cube. -/
def Faces.ways : Faces → Nat
  | .numbered sides => sides.toNat
  | .fudge => 6

/-- How many equally likely ways a throw can fall. -/
def Dice.ways (dice : Dice) : Nat :=
  dice.faces.ways ^ dice.thrown.toNat

theorem Dice.ways_eq (dice : Dice) :
    dice.ways = 2 ^ dice.fudgeDice * (dice.plan.map UInt64.toNat).prod := by
  rw [Dice.ways, Dice.plan, List.map_replicate, List.prod_replicate, Dice.fudgeDice]
  cases dice.faces with
  | numbered sides => simp [Faces.ways, Faces.outcomes]
  | fudge =>
      simp only [Faces.ways, Faces.outcomes, toNat_three]
      rw [← Nat.mul_pow]

theorem prod_ways (throws : List Dice) :
    (throws.map Dice.ways).prod =
      2 ^ (throws.map Dice.fudgeDice).sum *
        ((throws.flatMap Dice.plan).map UInt64.toNat).prod := by
  induction throws with
  | nil => rfl
  | cons dice throws induction =>
      rw [List.map_cons, List.prod_cons, induction, Dice.ways_eq, List.map_cons,
        List.sum_cons, List.flatMap_cons, List.map_append, List.prod_append,
        Nat.pow_add]
      ac_rfl

theorem Distribution.Samples.total {distribution : Distribution}
    {throws : List Dice} {roll : (σ : Type) → [Roller σ] → Throwing σ Int64}
    {value : List UInt64 → Int64} (samples : distribution.Samples throws roll value) :
    distribution.total = (throws.map Dice.ways).prod := by
  rw [samples.counts.total, List.length_map, length_drawVectors, prod_ways]

theorem Odds.outcomes_ascending (odds : Odds) :
    odds.outcomes.Pairwise fun left right => left ≤ right :=
  odds.distribution.outcomes_ascending.imp Int64.le_of_lt

theorem Odds.min_le {odds : Odds} {outcome : Int64}
    (member : outcome ∈ odds.outcomes) : odds.min ≤ outcome :=
  odds.outcomes_ascending.rel_head_of_rel_head_head member (Int64.le_refl _)

theorem Odds.le_max {odds : Odds} {outcome : Int64}
    (member : outcome ∈ odds.outcomes) : outcome ≤ odds.max :=
  odds.outcomes_ascending.rel_getLast_of_rel_getLast_getLast member
    (Int64.le_refl _)

theorem exists_mem_drawVectors {plan : List UInt64}
    (positive : ∀ sides ∈ plan, 0 < sides) : ∃ draws, draws ∈ drawVectors plan :=
  ⟨_, Roller.answers_mem_drawVectors positive (Prepared.mk [])⟩

theorem Distribution.Samples.total_positive {distribution : Distribution}
    {throws : List Dice} {roll : (σ : Type) → [Roller σ] → Throwing σ Int64}
    {value : List UInt64 → Int64} (samples : distribution.Samples throws roll value) :
    0 < distribution.total := by
  obtain ⟨draws, member⟩ := exists_mem_drawVectors samples.positive
  rw [samples.counts.total, List.length_map]
  exact Nat.mul_pos (Nat.two_pow_pos _) (List.length_pos_of_mem member)

theorem Odds.ofDistribution_of_total {distribution : Distribution}
    (positive : 0 < distribution.total) :
    Odds.ofDistribution distribution = .ok ⟨distribution, positive⟩ := by
  have entries : distribution.entries.isEmpty = false := by
    cases listed : distribution.entries with
    | nil => simp [Distribution.total, listed] at positive
    | cons entry entries => rfl
  simp [Odds.ofDistribution, entries, positive]

theorem Odds.distribution_of_ofDistribution {distribution : Distribution} {odds : Odds}
    (tabled : Odds.ofDistribution distribution = .ok odds) :
    odds.distribution = distribution := by
  simp only [Odds.ofDistribution] at tabled
  split at tabled
  · contradiction
  · split at tabled
    · cases tabled
      rfl
    · contradiction

/-- Whatever the limits, a distribution that is found is exact.  It gives an
outcome as many ways as there are draw vectors on which the roll shows it, times
two for each Fudge die.  Every draw vector is asked for in the order of the plan,
used up, and shows one of the outcomes, which lie between the smallest and the
largest one; every outcome is shown; and there are as many ways in all as the
dice can fall. -/
theorem Expression.distribution_exact {limits : Limits} {expression : Expression}
    {distribution : Distribution} (countable : expression.plan.length < 2 ^ 64)
    (success : expression.distribution limits = .ok distribution) :
    (∀ outcome, distribution.frequency outcome =
      2 ^ expression.fudgeDice * (drawVectors expression.plan).countP fun draws =>
        (expression.roll none (Prepared.mk draws)).1 = .ok outcome) ∧
    (∀ draws ∈ drawVectors expression.plan, ∃ outcome ∈ distribution.outcomes,
      expression.roll none (Recorded.mk (Prepared.mk draws) []) =
        (.ok outcome, ⟨⟨[]⟩, (expression.plan.zip draws).reverse⟩)) ∧
    (∀ outcome, outcome ∈ distribution.outcomes ↔
      ∃ draws ∈ drawVectors expression.plan,
        (expression.roll none (Prepared.mk draws)).1 = .ok outcome) ∧
    (∃ odds, Odds.ofDistribution distribution = .ok odds ∧
      ∀ draws ∈ drawVectors expression.plan, ∃ outcome,
        (expression.roll none (Prepared.mk draws)).1 = .ok outcome ∧
          odds.min ≤ outcome ∧ outcome ≤ odds.max) ∧
    distribution.total = (expression.throws.map Dice.ways).prod := by
  obtain ⟨value, samples⟩ :=
    Expression.exists_samples (Expression.interpret_of_distribution success)
  have results : ∀ draws ∈ drawVectors expression.plan,
      (expression.roll none (Prepared.mk draws)).1 = .ok (value draws) := by
    intro draws member
    have answered := Roller.answers_prepared member []
    rw [List.append_nil] at answered
    rw [samples.roll countable, answered]
  have listed : ∀ draws ∈ drawVectors expression.plan,
      value draws ∈ distribution.outcomes := by
    intro draws member
    exact (samples.counts.outcomes _).mpr (List.mem_map_of_mem member)
  refine ⟨?_, ?_, ?_, ?_, samples.total⟩
  · intro outcome
    rw [samples.counts.frequency, List.count_eq_countP, List.countP_map]
    apply congrArg
    apply List.countP_congr
    intro draws member
    simp [results draws member]
  · intro draws member
    refine ⟨value draws, listed draws member, ?_⟩
    have answered := Roller.answers_prepared member []
    rw [List.append_nil] at answered
    have positive : ∀ sides ∈ expression.plan, 0 < sides := samples.positive
    rw [samples.roll countable, Roller.answers_recorded positive, answered]
    simp
  · intro outcome
    rw [samples.counts.outcomes, List.mem_map]
    constructor
    · intro ⟨draws, member, shown⟩
      exact ⟨draws, member, shown ▸ results draws member⟩
    · intro ⟨draws, member, rolled⟩
      rw [results draws member] at rolled
      exact ⟨draws, member, Except.ok.inj rolled⟩
  · refine ⟨_, Odds.ofDistribution_of_total samples.total_positive, ?_⟩
    intro draws member
    exact ⟨value draws, results draws member, Odds.min_le (listed draws member),
      Odds.le_max (listed draws member)⟩

/-- Two dice with two sides minus a Fudge die. -/
theorem two_dice_minus_fudge_die_exact :
    let expression := Expression.combine
      (.term (.atom (.dice (.sum 2 (.numbered 2)) "2d2"))) .sub
      (.atom (.dice (.sum 1 .fudge) "1dF"))
    ∃ distribution, expression.distribution .standard = .ok distribution ∧
      distribution.frequency 3 =
        2 * (drawVectors [2, 2, 3]).countP fun draws =>
          (expression.roll none (Prepared.mk draws)).1 = .ok 3 := by
  intro expression
  have countable : expression.plan.length < 2 ^ 64 := by decide
  cases success : expression.distribution .standard with
  | error fault =>
      have absurd : (expression.distribution .standard).isOk = true := by
        decide +kernel
      rw [success] at absurd
      contradiction
  | ok distribution =>
      have exact := Expression.distribution_exact countable success
      exact ⟨distribution, rfl, exact.1 3⟩

end DiceOdds
