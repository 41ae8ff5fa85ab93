import DiceOdds.Proofs.Exactness
import DiceOdds.Proofs.FudgeSides
import DiceOdds.Proofs.InterpretationInduction
import DiceOdds.Proofs.MiddleTriples
import DiceOdds.Proofs.PushForward
import Mathlib.Data.Finset.NAry
import Mathlib.Data.Int.Interval

/-!
# Sizes foreseen

The work on dice is judged before their distribution is computed.  It is the number of
the dice times the number of their outcomes, or the number of outcomes of a middle one,
because the outcomes of dice are all the numbers between the least and the greatest one.
A join has no more outcomes than it has pairs.  So a cap on both bounds whatever comes up
while an expression is evaluated.
-/

namespace DiceOdds

namespace Distribution

variable {distribution : Distribution}

theorem size_eq_length_outcomes (distribution : Distribution) :
    distribution.size = distribution.outcomes.length := by
  rw [outcomes, List.length_map, length_entries]

theorem size_eq_card (distribution : Distribution) :
    distribution.size = distribution.outcomes.toFinset.card := by
  rw [List.toFinset_card_of_nodup distribution.nodup_outcomes, size_eq_length_outcomes]

/-- A distribution of all the words between two numbers has one outcome for each. -/
theorem size_of_interval {least greatest : Int} (leastWord : isWord least)
    (greatestWord : isWord greatest)
    (between : ∀ outcome, outcome ∈ distribution.outcomes ↔
      least ≤ outcome.toInt ∧ outcome.toInt ≤ greatest) :
    distribution.size = (greatest + 1 - least).toNat := by
  have image : distribution.outcomes.toFinset.image Int64.toInt =
      Finset.Icc least greatest := by
    ext value
    simp only [Finset.mem_image, List.mem_toFinset, between, Finset.mem_Icc]
    constructor
    · rintro ⟨outcome, bounds, rfl⟩
      exact bounds
    · intro bounds
      have word : isWord value :=
        ⟨leastWord.1.trans bounds.1, bounds.2.trans_lt greatestWord.2⟩
      refine ⟨Int64.ofInt value, ?_, toInt_ofInt_of_isWord word⟩
      rwa [toInt_ofInt_of_isWord word]
  have injective : Function.Injective Int64.toInt := fun _ _ => Int64.toInt_inj.mp
  rw [size_eq_card, ← Finset.card_image_of_injective _ injective, image, Int.card_Icc]

theorem size_singleton (outcome : Int64) : (singleton outcome).size = 1 := by
  simp [singleton, put, empty, size, Std.ExtTreeMap.size_insert]

/-- Every pair gives one outcome, and some may give the same. -/
theorem size_convolve_le {cap : Cap} {operator : Operator} {lhs rhs joined : Distribution}
    (success : convolve cap operator lhs rhs = .ok joined) :
    joined.size ≤ lhs.size * rhs.size := by
  have image : joined.outcomes.toFinset =
      Finset.image₂ operator.value lhs.outcomes.toFinset rhs.outcomes.toFinset := by
    ext outcome
    simp only [Finset.mem_image₂, List.mem_toFinset,
      mem_outcomes_convolve (convolve_of_cap success)]
  rw [size_eq_card, size_eq_card lhs, size_eq_card rhs, image]
  exact Finset.card_image₂_le _ _ _

end Distribution

/-- How many dice are added up: of three dice the middle one alone counts. -/
def Dice.added : Dice → Nat
  | .sum count _ => count.toNat
  | .middle _ => 1

/-- The results of dice are all the words between two numbers, and the work on the dice
is foreseen from these. -/
theorem Dice.exists_interval {dice : Dice} (sound : dice.defect? = none)
    (fits : dice.Fits) :
    ∃ least greatest : Int, isWord least ∧ isWord greatest ∧
      (∀ result, result ∈ dice.results ↔
        least ≤ result.toInt ∧ result.toInt ≤ greatest) ∧
      dice.work = dice.added * (greatest + 1 - least).toNat := by
  have positive := UInt64.lt_iff_toNat_lt.mp (Dice.outcomes_positive sound)
  rcases dice with ⟨count, sides | _⟩ | sides | _
  · have room : count.toNat * sides.toNat < 2 ^ 63 := fits
    have sided : 0 < sides.toNat := positive
    have counted := Dice.count_positive sound
    have least : count.toNat ≤ count.toNat * sides.toNat := Nat.le_mul_of_pos_right _ sided
    refine ⟨count.toNat, (count.toNat * sides.toNat : Nat), ⟨by omega, by omega⟩,
      ⟨by omega, by omega⟩, Dice.mem_results_sum room, ?_⟩
    simp only [Dice.work, Dice.added, Faces.outcomes, Nat.mul_sub_one]
    congr 1
    omega
  · have room : count.toNat < 2 ^ 32 := fits
    refine ⟨-count.toNat, count.toNat, ⟨by omega, by omega⟩, ⟨by omega, by omega⟩,
      fun _ => Dice.mem_results_sum_fudge room, ?_⟩
    simp only [Dice.work, Dice.added, Faces.outcomes, toNat_three]
    congr 1
    omega
  · have room : sides.toNat < 2 ^ 63 := fits
    refine ⟨1, sides.toNat, by decide, ⟨by omega, by omega⟩,
      fun _ => Dice.mem_results_middle room, ?_⟩
    simp only [Dice.work, Dice.added, Faces.outcomes, Nat.one_mul]
    omega
  · exact ⟨-1, 1, by decide, by decide, fun _ => Dice.mem_results_middle_fudge, rfl⟩

theorem Dice.added_lt (dice : Dice) : dice.added < 2 ^ 64 := by
  cases dice with
  | sum count faces => exact count.toNat_lt
  | middle faces => exact Nat.one_lt_two_pow (by decide)

theorem Dice.added_positive {dice : Dice} (sound : dice.defect? = none) :
    0 < dice.added := by
  cases dice with
  | sum count faces => exact Dice.count_positive sound
  | middle faces => exact Nat.one_pos

/-- The work on dice counts their outcomes, once for each die that is added up, and two
words hold it. -/
theorem Dice.work_eq_added_mul_size {cap : Cap} {dice : Dice} {distribution : Distribution}
    (success : dice.distribution cap = .ok distribution) :
    dice.work = dice.added * distribution.size ∧ dice.work < 2 ^ 128 := by
  obtain ⟨sound, success⟩ := Dice.distribution_ok success
  obtain ⟨fits, counts⟩ := Dice.counts_of_soundDistribution sound success
  obtain ⟨least, greatest, leastWord, greatestWord, between, work⟩ :=
    Dice.exists_interval sound fits
  have size := Distribution.size_of_interval leastWord greatestWord fun outcome =>
    (counts.outcomes outcome).trans (between outcome)
  have narrow : distribution.size ≤ 2 ^ 64 := by
    obtain ⟨above, _⟩ := leastWord
    obtain ⟨_, below⟩ := greatestWord
    omega
  rw [← size] at work
  refine ⟨work, ?_⟩
  calc
    dice.work = dice.added * distribution.size := work
    _ ≤ dice.added * 2 ^ 64 := Nat.mul_le_mul_left _ narrow
    _ < 2 ^ 64 * 2 ^ 64 := Nat.mul_lt_mul_of_pos_right dice.added_lt (Nat.two_pow_pos 64)

section Collecting

variable {α : Type}

/-- Does an action and adds its value to a list. -/
def collected {m : Type → Type} [Monad m] (action : m α) : StateT (List α) m α :=
  fun values => do
    let value ← action
    return (value, values ++ [value])

/-- The same interpretation with a list of the values that come up, one for each leaf,
each group and each operator. -/
def Interpretation.collecting {m : Type → Type} [Monad m] (meaning : Interpretation m α) :
    Interpretation (StateT (List α) m) α where
  constant value := collected (meaning.constant value)
  dice dice lexeme := collected (meaning.dice dice lexeme)
  group inner := collected (meaning.group inner)
  combine lhs operator rhs := collected (meaning.combine lhs operator rhs)

/-- The action comes to what the attempt comes to.  A value that is found has the
property, and so has every value collected before. -/
structure CollectsOnly (holds : α → Prop) (attempt : Except EvalFault α)
    (action : StateT (List α) (Except EvalFault) α) : Prop where
  fails : ∀ fault, attempt = .error fault → ∀ before, action.run before = .error fault
  finds : ∀ value, attempt = .ok value → holds value ∧ ∀ before, ∃ values,
    action.run before = .ok (value, before ++ values) ∧ ∀ met ∈ values, holds met

variable {holds : α → Prop}

theorem CollectsOnly.single {attempt : Except EvalFault α}
    (held : ∀ value, attempt = .ok value → holds value) :
    CollectsOnly holds attempt (collected attempt) := by
  constructor
  · rintro fault rfl before
    rfl
  · rintro value rfl
    have found := held value rfl
    exact ⟨found, fun before => ⟨[value], rfl, List.forall_mem_singleton.mpr found⟩⟩

theorem CollectsOnly.bind {attempt : Except EvalFault α}
    {action : StateT (List α) (Except EvalFault) α} {next : α → Except EvalFault α}
    {nextAction : α → StateT (List α) (Except EvalFault) α}
    (first : CollectsOnly holds attempt action)
    (second : ∀ value, holds value → CollectsOnly holds (next value) (nextAction value)) :
    CollectsOnly holds (attempt >>= next) (action >>= nextAction) := by
  constructor
  · intro fault failed before
    rw [StateT.run_bind]
    rcases error_of_bind_error failed with failed | ⟨value, success, failed⟩
    · rw [first.fails fault failed]
      rfl
    · obtain ⟨found, collects⟩ := first.finds value success
      obtain ⟨values, ran, _⟩ := collects before
      rw [ran, ok_bind, (second value found).fails fault failed]
  · intro last success
    obtain ⟨value, success, lastSuccess⟩ := exists_of_bind_ok success
    obtain ⟨found, collects⟩ := first.finds value success
    obtain ⟨lastFound, lastCollects⟩ := (second value found).finds last lastSuccess
    refine ⟨lastFound, fun before => ?_⟩
    obtain ⟨values, ran, met⟩ := collects before
    obtain ⟨others, lastRan, othersMet⟩ := lastCollects (before ++ values)
    refine ⟨values ++ others, ?_, List.forall_mem_append.mpr ⟨met, othersMet⟩⟩
    rw [StateT.run_bind, ran, ok_bind, lastRan, List.append_assoc]

end Collecting

section Capped

variable {limit : Nat}

theorem Dice.size_le_of_distribution {dice : Dice} {distribution : Distribution}
    (success : dice.distribution (some limit) = .ok distribution) :
    distribution.size ≤ limit := by
  obtain ⟨work, _⟩ := Dice.work_eq_added_mul_size success
  have positive := Dice.added_positive (Dice.distribution_ok success).1
  obtain ⟨_, _, checked⟩ := exists_of_bind_ok success
  obtain ⟨_, passed, _⟩ := exists_of_bind_ok checked
  have within : dice.work ≤ limit := Cap.check_eq_ok_iff.mp passed limit rfl
  calc
    distribution.size ≤ dice.added * distribution.size := Nat.le_mul_of_pos_left _ positive
    _ = dice.work := work.symm
    _ ≤ limit := within

theorem Distribution.size_le_of_convolve {operator : Operator} {lhs rhs joined : Distribution}
    (success : Distribution.convolve (some limit) operator lhs rhs = .ok joined) :
    joined.size ≤ limit := by
  obtain ⟨_, passed, _⟩ := exists_of_bind_ok success
  have within : lhs.size * rhs.size ≤ limit := Cap.check_eq_ok_iff.mp passed limit rfl
  exact (Distribution.size_convolve_le success).trans within

/-- Under a cap no distribution that comes up has more outcomes than the cap, or than
one. -/
theorem exactOdds_collectsOnly (limit : Nat) :
    (exactOdds (some limit)).Related (exactOdds (some limit)).collecting fun _ =>
      CollectsOnly fun distribution => distribution.size ≤ max 1 limit where
  constant value := CollectsOnly.single fun _ success => by
    cases success
    rw [Distribution.size_singleton]
    exact Nat.le_max_left 1 limit
  dice dice _ := CollectsOnly.single fun _ success =>
    (Dice.size_le_of_distribution success).trans (Nat.le_max_right 1 limit)
  group inner := inner.bind fun _ small => .single fun _ success => by
    cases success
    exact small
  combine operator left right :=
    left.bind fun lhs _ => right.bind fun rhs _ => .single fun _ success =>
      (Distribution.size_le_of_convolve success).trans (Nat.le_max_right 1 limit)

end Capped

/-- The work on dice is the number of dice times the number of their outcomes, or the
number of outcomes of a middle one.  Under a cap on combinations an expression that has a
distribution has all its parts evaluated, and neither its distribution nor any that comes
up on the way has more outcomes than the cap allows, one outcome being always allowed. -/
theorem Expression.sizes_foreseen :
    (∀ count faces distribution,
      (Dice.sum count faces).distribution none = .ok distribution →
        (Dice.sum count faces).work = count.toNat * distribution.size ∧
          (Dice.sum count faces).work < 2 ^ 128) ∧
    (∀ faces distribution, (Dice.middle faces).distribution none = .ok distribution →
      (Dice.middle faces).work = distribution.size ∧ (Dice.middle faces).work < 2 ^ 128) ∧
    ∀ limits limit expression distribution, limits.maxCombinations = some limit →
      Expression.distribution limits expression = .ok distribution →
        distribution.size ≤ max 1 limit ∧
        ∃ values, (expression.interpret (exactOdds (some limit)).collecting).run [] =
            .ok (distribution, values) ∧
          ∀ value ∈ values, value.size ≤ max 1 limit := by
  refine ⟨?_, ?_, ?_⟩
  · intro count faces distribution success
    exact Dice.work_eq_added_mul_size success
  · intro faces distribution success
    obtain ⟨work, narrow⟩ := Dice.work_eq_added_mul_size success
    rw [work, Dice.added, Nat.one_mul] at *
    exact ⟨rfl, narrow⟩
  · intro limits limit expression distribution capped success
    have interpreted := Expression.interpret_of_distribution success
    rw [capped] at interpreted
    have collectsOnly := expression.interpret_related (exactOdds_collectsOnly limit)
    obtain ⟨small, collects⟩ := collectsOnly.finds distribution interpreted
    exact ⟨small, collects []⟩

/-- Two dice with three sides and the middle one of three Fudge dice, and the product of
both with just enough room for its pairs. -/
theorem two_dice_times_middle_foreseen :
    let dice := Dice.sum 2 (.numbered 3)
    let expression := Expression.term (.combine
      (.atom (.dice dice "2d3")) .mul (.dice (.middle .fudge) "midF"))
    let limits : Limits :=
      { maxRolls := none, maxCombinations := some 15, maxDepth := none }
    (∃ distribution, dice.distribution none = .ok distribution ∧
      10 = 2 * distribution.size) ∧
    (∃ distribution, (Dice.middle .fudge).distribution none = .ok distribution ∧
      3 = distribution.size) ∧
    ∃ distribution values, expression.distribution limits = .ok distribution ∧
      (expression.interpret (exactOdds (some 15)).collecting).run [] =
        .ok (distribution, values) ∧
      ∀ value ∈ values, value.size ≤ 15 := by
  intro dice expression limits
  have diceFound : (dice.distribution none).isOk = true := by
    decide +kernel
  have middleFound : ((Dice.middle .fudge).distribution none).isOk = true := by
    decide +kernel
  have found : (expression.distribution limits).isOk = true := by
    decide +kernel
  obtain ⟨sums, middles, capped⟩ := Expression.sizes_foreseen
  obtain ⟨sum, sumSuccess⟩ := exists_of_isOk diceFound
  obtain ⟨middle, middleSuccess⟩ := exists_of_isOk middleFound
  obtain ⟨distribution, success⟩ := exists_of_isOk found
  obtain ⟨_, values, collected, small⟩ := capped limits 15 expression distribution rfl success
  exact ⟨⟨sum, sumSuccess, (sums _ _ sum sumSuccess).1⟩,
    ⟨middle, middleSuccess, (middles _ middle middleSuccess).1⟩,
    ⟨distribution, values, success, collected, small⟩⟩

end DiceOdds
