import DiceOdds.Proofs.Exactness
import DiceOdds.Proofs.NearestBinary
import DiceOdds.Proofs.PushForward
import Mathlib.Algebra.BigOperators.Field
import Mathlib.Algebra.Order.BigOperators.Group.Finset

/-!
# The table of odds

A distribution has odds as soon as one of its outcomes has a way.  Their table lists
the outcomes in ascending order, each with the binary number nearest to its share in all
ways, so no number is far from the share, none is out of order, and they add up to
nearly one.  Only the ratios of the frequencies matter to it.
-/

namespace DiceOdds

namespace Distribution

variable {distribution : Distribution}

theorem total_eq_sum_outcomes (distribution : Distribution) :
    distribution.total =
      ∑ outcome ∈ distribution.outcomes.toFinset, distribution.frequency outcome := by
  rw [total_eq_weigh, weigh]
  simp only [Nat.mul_one]

theorem total_eq_zero_iff :
    distribution.total = 0 ↔ ∀ outcome, distribution.frequency outcome = 0 := by
  rw [total_eq_sum_outcomes, Finset.sum_eq_zero_iff]
  refine ⟨fun none outcome => ?_, fun none outcome _ => none outcome⟩
  by_cases member : outcome ∈ distribution.outcomes
  · exact none outcome (List.mem_toFinset.mpr member)
  · exact frequency_of_not_mem member

theorem frequency_le_total (distribution : Distribution) (outcome : Int64) :
    distribution.frequency outcome ≤ distribution.total := by
  by_cases member : outcome ∈ distribution.outcomes
  · rw [total_eq_sum_outcomes]
    exact Finset.single_le_sum (fun _ _ => Nat.zero_le _) (List.mem_toFinset.mpr member)
  · rw [frequency_of_not_mem member]
    exact Nat.zero_le _

/-- Every frequency is multiplied by one factor. -/
def IsMultiple (multiple distribution : Distribution) (factor : Nat) : Prop :=
  ∀ outcome, multiple.frequency? outcome =
    (distribution.frequency? outcome).map (· * factor)

section Multiple

variable {multiple : Distribution} {factor : Nat}

theorem IsMultiple.frequency (times : multiple.IsMultiple distribution factor)
    (outcome : Int64) :
    multiple.frequency outcome = distribution.frequency outcome * factor := by
  rw [Distribution.frequency, Distribution.frequency, times]
  cases distribution.frequency? outcome with
  | none => exact (Nat.zero_mul factor).symm
  | some ways => rfl

theorem IsMultiple.outcomes (times : multiple.IsMultiple distribution factor) :
    multiple.outcomes = distribution.outcomes := by
  apply multiple.outcomes_ascending.eq_of_mem_iff distribution.outcomes_ascending
  intro outcome
  rw [mem_outcomes_iff, mem_outcomes_iff, times]
  simp

theorem IsMultiple.total (times : multiple.IsMultiple distribution factor) :
    multiple.total = distribution.total * factor := by
  simp only [total_eq_sum_outcomes, times.outcomes, times.frequency, Finset.sum_mul]

end Multiple

end Distribution

namespace Odds

variable {odds : Odds}

theorem probabilities_eq_map (odds : Odds) :
    odds.probabilities = odds.outcomes.map fun outcome =>
      (outcome, odds.probability outcome) := by
  rw [probabilities, Distribution.entries_eq_map, List.map_map]
  rfl

/-- The exact share of an outcome in all ways. -/
def share (odds : Odds) (outcome : Int64) : ℚ :=
  odds.frequency outcome / odds.permutations

theorem share_nonneg (odds : Odds) (outcome : Int64) : 0 ≤ odds.share outcome :=
  div_nonneg (Nat.cast_nonneg _) (Nat.cast_nonneg _)

theorem share_le_one (odds : Odds) (outcome : Int64) : odds.share outcome ≤ 1 := by
  refine div_le_one_of_le₀ ?_ (Nat.cast_nonneg _)
  exact_mod_cast odds.distribution.frequency_le_total outcome

theorem sum_share (odds : Odds) :
    ∑ outcome ∈ odds.outcomes.toFinset, odds.share outcome = 1 := by
  have total : (odds.permutations : ℚ) =
      ∑ outcome ∈ odds.outcomes.toFinset, (odds.frequency outcome : ℚ) := by
    exact_mod_cast odds.distribution.total_eq_sum_outcomes
  have positive : (odds.permutations : ℚ) ≠ 0 := by
    exact_mod_cast odds.total_positive.ne'
  simp only [share]
  rw [← Finset.sum_div, ← total, div_self positive]

theorem probability_isNearest (odds : Odds) (outcome : Int64) :
    (odds.probability outcome).IsNearest (odds.share outcome) :=
  Binary64.nearest_isNearest odds.total_positive
    (odds.distribution.frequency_le_total outcome)

theorem probability_error (odds : Odds) (outcome : Int64) :
    |(odds.probability outcome).value - odds.share outcome| ≤ 1 / 2 ^ 54 :=
  (odds.probability_isNearest outcome).error (odds.share_nonneg outcome)
    (odds.share_le_one outcome)

theorem probability_mono {left right : Int64}
    (fewer : odds.frequency left ≤ odds.frequency right) :
    (odds.probability left).value ≤ (odds.probability right).value := by
  rcases fewer.eq_or_lt with same | fewer
  · rw [probability, probability, same]
  · apply (odds.probability_isNearest left).mono (odds.probability_isNearest right)
    have positive : (0 : ℚ) < odds.permutations := by exact_mod_cast odds.total_positive
    exact div_lt_div_of_pos_right (by exact_mod_cast fewer) positive

/-- The errors add up, at most one for each outcome. -/
theorem sum_probabilities (odds : Odds) :
    |(odds.probabilities.map fun entry => entry.2.value).sum - 1| ≤
      odds.outcomes.length / 2 ^ 54 := by
  have distinct : odds.outcomes.Nodup := odds.distribution.nodup_outcomes
  rw [probabilities_eq_map, List.map_map, ← List.sum_toFinset _ distinct, ← sum_share odds,
    ← Finset.sum_sub_distrib]
  calc
    |∑ outcome ∈ odds.outcomes.toFinset,
        ((odds.probability outcome).value - odds.share outcome)|
      ≤ ∑ outcome ∈ odds.outcomes.toFinset,
          |(odds.probability outcome).value - odds.share outcome| :=
        Finset.abs_sum_le_sum_abs _ _
    _ ≤ odds.outcomes.toFinset.card • (1 / 2 ^ 54 : ℚ) :=
        Finset.sum_le_card_nsmul _ _ _ fun outcome _ => odds.probability_error outcome
    _ = odds.outcomes.length / 2 ^ 54 := by
        rw [List.toFinset_card_of_nodup distinct, nsmul_eq_mul, mul_one_div]

/-- A table of odds is a faithful image of a distribution: it lists the outcomes in
ascending order, each with the number of the format that is nearest to its share in all
ways, within `2 ^ -54` of it. -/
structure Depicts (odds : Odds) (distribution : Distribution) : Prop where
  ascending : odds.outcomes.Pairwise fun left right => left < right
  listed : ∀ outcome, outcome ∈ odds.outcomes ↔
    ∃ ways, distribution.frequency? outcome = some ways
  ends : odds.outcomes.head? = some odds.min ∧ odds.outcomes.getLast? = some odds.max
  permutations : odds.permutations = (odds.outcomes.map distribution.frequency).sum
  entries : odds.probabilities = odds.outcomes.map fun outcome =>
    (outcome, odds.probability outcome)
  nearest : ∀ outcome, (odds.probability outcome).IsNearest
    (distribution.frequency outcome / odds.permutations)
  share : ∀ outcome, 0 ≤ (odds.probability outcome).value ∧
    (odds.probability outcome).value ≤ 1
  error : ∀ outcome, |(odds.probability outcome).value -
    distribution.frequency outcome / odds.permutations| ≤ 1 / 2 ^ 54
  ordered : ∀ left right,
    distribution.frequency left ≤ distribution.frequency right →
      (odds.probability left).value ≤ (odds.probability right).value
  sum : |(odds.probabilities.map fun entry => entry.2.value).sum - 1| ≤
    odds.outcomes.length / 2 ^ 54

theorem depicts (odds : Odds) : odds.Depicts odds.distribution where
  ascending := odds.distribution.outcomes_ascending
  listed _ := Distribution.mem_outcomes_iff
  ends := ⟨List.head?_eq_some_head _, List.getLast?_eq_some_getLast _⟩
  permutations := by
    rw [permutations, Distribution.total_eq_sum_outcomes,
      List.sum_toFinset _ odds.distribution.nodup_outcomes]
    rfl
  entries := odds.probabilities_eq_map
  nearest := odds.probability_isNearest
  share outcome := ⟨Binary64.value_nonneg _,
    (odds.probability_isNearest outcome).le_one (odds.share_le_one outcome)⟩
  error := odds.probability_error
  ordered _ _ := probability_mono
  sum := odds.sum_probabilities

theorem ofDistribution_fails_iff {distribution : Distribution} :
    (∃ fault, ofDistribution distribution = .error fault) ↔ distribution.total = 0 := by
  rcases Nat.eq_zero_or_pos distribution.total with none | positive
  · refine iff_of_true ?_ none
    unfold ofDistribution
    split
    next => exact ⟨_, rfl⟩
    next => exact ⟨_, dif_neg (by omega)⟩
  · refine iff_of_false ?_ positive.ne'
    rintro ⟨fault, failure⟩
    rw [ofDistribution_of_total positive] at failure
    cases failure

/-- The factor of all frequencies cancels in every share. -/
theorem probabilities_of_multiple {multiple : Odds} {factor : Nat} (positive : 0 < factor)
    (times : multiple.distribution.IsMultiple odds.distribution factor) :
    multiple.probabilities = odds.probabilities := by
  rw [probabilities_eq_map, probabilities_eq_map, outcomes, times.outcomes, ← outcomes]
  apply List.map_congr_left
  intro outcome _
  rw [probability, probability, frequency, permutations, times.frequency, times.total,
    Binary64.nearest_mul_right odds.total_positive positive]
  rfl

/-- A distribution has no odds exactly when it is empty or all of its frequencies are
zero.  Otherwise the table of its odds is a faithful image of it, and the same for
every multiple of it. -/
theorem table_faithful (distribution : Distribution) :
    ((∃ fault, ofDistribution distribution = .error fault) ↔
      distribution.outcomes = [] ∨ ∀ outcome, distribution.frequency outcome = 0) ∧
    ∀ odds, ofDistribution distribution = .ok odds →
      odds.Depicts distribution ∧
      ∀ factor multiple, 0 < factor → multiple.IsMultiple distribution factor →
        ∃ multipleOdds, ofDistribution multiple = .ok multipleOdds ∧
          multipleOdds.probabilities = odds.probabilities := by
  constructor
  · rw [ofDistribution_fails_iff, Distribution.total_eq_zero_iff]
    refine ⟨.inr, ?_⟩
    rintro (empty | none)
    · exact fun outcome => Distribution.frequency_of_not_mem (by simp [empty])
    · exact none
  · intro odds success
    obtain rfl := distribution_of_ofDistribution success
    refine ⟨odds.depicts, fun factor multiple positive times => ?_⟩
    have ways : 0 < multiple.total := by
      rw [times.total]
      exact Nat.mul_pos odds.total_positive positive
    exact ⟨_, ofDistribution_of_total ways, probabilities_of_multiple positive times⟩

/-- Thirds beside an outcome without ways, and the same with huge frequencies. -/
theorem thirds_depicted :
    let thirds := Distribution.ofList [(-1, 1), (4, 0), (7, 2)]
    let huge := Distribution.ofList [(-1, 10 ^ 400), (4, 0), (7, 2 * 10 ^ 400)]
    (∃ odds, ofDistribution thirds = .ok odds ∧ odds.Depicts thirds ∧
      ∃ hugeOdds, ofDistribution huge = .ok hugeOdds ∧
        hugeOdds.probabilities = odds.probabilities) ∧
    ∃ fault, ofDistribution (.ofList [(5, 0)]) = .error fault := by
  intro thirds huge
  have ways : 0 < thirds.total := by decide +kernel
  have success := ofDistribution_of_total ways
  have times : huge.IsMultiple thirds (10 ^ 400) := by
    intro outcome
    simp only [huge, thirds, Distribution.ofList, List.foldl_cons, List.foldl_nil,
      Distribution.frequency?_put, Distribution.frequency?_empty]
    split_ifs <;> simp only [Option.map_some, Option.map_none, Nat.one_mul, Nat.zero_mul]
  obtain ⟨depicts, multiples⟩ := (table_faithful thirds).2 _ success
  refine ⟨⟨_, success, depicts, multiples _ huge (Nat.pow_pos (by decide)) times⟩, ?_⟩
  exact (table_faithful _).1.mpr (.inr fun outcome => by
    rw [Distribution.frequency, Distribution.ofList, List.foldl_cons, List.foldl_nil,
      Distribution.frequency?_put]
    split <;> simp)

end Odds

end DiceOdds
