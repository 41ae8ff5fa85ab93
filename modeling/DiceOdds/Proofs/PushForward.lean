import DiceOdds.Proofs.ConvolutionCount
import Mathlib.Data.Finset.Prod
import Mathlib.Algebra.BigOperators.Group.Finset.Sigma

/-!
# Convolution as a push-forward

A distribution weighs a function of the outcomes: it adds up what the function gives
to each outcome, as often as the outcome comes about.  A join weighs a function as the
pairs of outcomes of both operands weigh it behind the operator, which gives the ways
of each result and the total.  The pairs are tried in ascending order, so a join fails
with the fault of the first pair that has no result.
-/

namespace DiceOdds

/-- Why an operator has no result on two words: the divisor is zero, or the exact
integer is not a word. -/
inductive Operator.Refuses (operator : Operator) (lhs rhs : Int64) : EvalFault → Prop
  | zeroDivisor (divides : operator = .div) (zero : rhs = 0) :
      operator.Refuses lhs rhs .divisionByZero
  | noWord (defined : ¬ (operator = .div ∧ rhs = 0))
      (wide : ¬ isWord (operator.exact lhs.toInt rhs.toInt)) :
      operator.Refuses lhs rhs .overflow

theorem Operator.apply_eq_error_iff {operator : Operator} {lhs rhs : Int64}
    {fault : EvalFault} :
    operator.apply lhs rhs = .error fault ↔ operator.Refuses lhs rhs fault := by
  constructor
  · intro failed
    by_cases zero : operator = .div ∧ rhs = 0
    · rw [Operator.apply, if_pos zero] at failed
      cases failed
      exact .zeroDivisor zero.1 zero.2
    · rw [Operator.apply, if_neg zero] at failed
      by_cases word : isWord (operator.exact lhs.toInt rhs.toInt)
      · rw [toWord_of_isWord word] at failed
        contradiction
      · rw [toWord_of_not_isWord word] at failed
        cases failed
        exact .noWord zero word
  · intro refused
    cases refused with
    | zeroDivisor divides zero => exact if_pos ⟨divides, zero⟩
    | noWord defined wide =>
        rw [Operator.apply, if_neg defined, toWord_of_not_isWord wide]

theorem Operator.exists_apply_iff {operator : Operator} {lhs rhs : Int64} :
    (∃ result, operator.apply lhs rhs = .ok result) ↔
      ∀ fault, ¬ operator.Refuses lhs rhs fault := by
  simp only [← Operator.apply_eq_error_iff]
  cases operator.apply lhs rhs with
  | error cause => simp
  | ok result => simp

/-- A result is the exact integer. -/
theorem Operator.exact_of_apply {operator : Operator} {lhs rhs result : Int64}
    (applied : operator.apply lhs rhs = .ok result) :
    operator.exact lhs.toInt rhs.toInt = result.toInt := by
  have unrefused := Operator.exists_apply_iff.mp ⟨result, applied⟩
  have word : isWord (operator.exact lhs.toInt rhs.toInt) := by
    by_contra wide
    by_cases zero : operator = .div ∧ rhs = 0
    · exact unrefused _ (.zeroDivisor zero.1 zero.2)
    · exact unrefused _ (.noWord zero wide)
  exact (ofInt_eq_iff word).mp (Operator.value_of_apply applied)

theorem Operator.value_eq_iff {operator : Operator} {lhs rhs result : Int64}
    (applied : operator.apply lhs rhs = .ok result) (query : Int64) :
    operator.value lhs rhs = query ↔
      operator.exact lhs.toInt rhs.toInt = query.toInt := by
  rw [Operator.value_of_apply applied, Operator.exact_of_apply applied, Int64.toInt_inj]

namespace Distribution

/-- What a function of the outcomes adds up to over all ways. -/
def weigh (distribution : Distribution) (share : Int64 → Nat) : Nat :=
  ∑ outcome ∈ distribution.outcomes.toFinset,
    distribution.frequency outcome * share outcome

section Weighing

variable {distribution : Distribution}

theorem weigh_congr {left right : Int64 → Nat}
    (same : ∀ outcome ∈ distribution.outcomes, left outcome = right outcome) :
    distribution.weigh left = distribution.weigh right := by
  apply Finset.sum_congr rfl
  intro outcome member
  rw [same outcome (List.mem_toFinset.mp member)]

theorem weigh_mul (share : Int64 → Nat) (factor : Nat) :
    (distribution.weigh fun outcome => share outcome * factor) =
      distribution.weigh share * factor := by
  simp only [weigh, Finset.sum_mul, Nat.mul_assoc]

theorem weigh_sum {ι : Type} (indices : Finset ι) (share : ι → Int64 → Nat) :
    (distribution.weigh fun outcome => ∑ index ∈ indices, share index outcome) =
      ∑ index ∈ indices, distribution.weigh (share index) := by
  simp only [weigh, Finset.mul_sum]
  exact Finset.sum_comm

/-- The order in which two distributions are weighed does not matter. -/
theorem weigh_comm (lhs rhs : Distribution) (share : Int64 → Int64 → Nat) :
    (lhs.weigh fun left => rhs.weigh fun right => share left right) =
      rhs.weigh fun right => lhs.weigh fun left => share left right := by
  simp only [weigh, Finset.mul_sum]
  rw [Finset.sum_comm]
  apply Finset.sum_congr rfl
  intro right _
  apply Finset.sum_congr rfl
  intro left _
  rw [Nat.mul_left_comm]

theorem frequency_eq_weigh (distribution : Distribution) (query : Int64) :
    distribution.frequency query =
      distribution.weigh fun outcome => if outcome = query then 1 else 0 := by
  by_cases member : query ∈ distribution.outcomes
  · simp [weigh, member]
  · simp [weigh, member, frequency_of_not_mem member]

theorem total_eq_weigh (distribution : Distribution) :
    distribution.total = distribution.weigh fun _ => 1 := by
  have summed := distribution.sum_entries fun _ => 1
  simpa [total, weigh] using summed

end Weighing

/-- Distributions with the same outcomes and the same frequencies are equal. -/
theorem ext_frequency {lhs rhs : Distribution}
    (outcomes : ∀ outcome, outcome ∈ lhs.outcomes ↔ outcome ∈ rhs.outcomes)
    (frequency : ∀ outcome, lhs.frequency outcome = rhs.frequency outcome) :
    lhs = rhs := by
  have held : ∀ {left right : Distribution},
      (∀ outcome, outcome ∈ left.outcomes → outcome ∈ right.outcomes) →
      (∀ outcome, left.frequency outcome = right.frequency outcome) →
      ∀ outcome ways, left.frequency? outcome = some ways →
        right.frequency? outcome = some ways := by
    intro left right members same outcome ways found
    obtain ⟨others, present⟩ :=
      mem_outcomes_iff.mp (members outcome (mem_outcomes_iff.mpr ⟨ways, found⟩))
    rw [present, ← frequency_of_frequency? found, same outcome,
      frequency_of_frequency? present]
  apply ext_frequency?
  intro outcome
  apply Option.ext
  intro ways
  constructor
  · exact held (fun query => (outcomes query).mp) frequency outcome ways
  · exact held (fun query => (outcomes query).mpr) (fun query => (frequency query).symm)
      outcome ways

/-- A sum over the pairs of entries is weighed by both operands. -/
theorem sum_pairs (lhs rhs : Distribution) (share : Int64 → Int64 → Nat) :
    ((lhs.pairs rhs).map fun pair =>
        pair.1.2 * pair.2.2 * share pair.1.1 pair.2.1).sum =
      lhs.weigh fun left => rhs.weigh fun right => share left right := by
  have row : ∀ left : Int64 × Nat,
      ((rhs.entries.map fun right => (left, right)).map fun pair =>
        pair.1.2 * pair.2.2 * share pair.1.1 pair.2.1).sum =
      left.2 * rhs.weigh fun right => share left.1 right := by
    intro left
    rw [weigh, ← sum_entries, ← List.sum_map_mul_left, List.map_map]
    simp only [Function.comp_def, Nat.mul_assoc]
  rw [pairs, sum_map_flatMap]
  simp only [row]
  exact lhs.sum_entries fun left => rhs.weigh fun right => share left right

section Joining

variable {operator : Operator} {lhs rhs joined : Distribution}

theorem frequency_convolve
    (success : convolve none operator lhs rhs = .ok joined) (outcome : Int64) :
    joined.frequency outcome =
      lhs.weigh fun left => rhs.weigh fun right =>
        if operator.value left right = outcome then 1 else 0 := by
  rw [convolve_none] at success
  obtain ⟨_, frequencies, _⟩ := foldlM_joinPair_ok success
  rw [frequencies, frequency_empty, Nat.zero_add, ← sum_pairs]
  simp only [mul_ite, Nat.mul_one, Nat.mul_zero]

/-- A join weighs a function as both operands weigh it behind the operator. -/
theorem weigh_convolve
    (success : convolve none operator lhs rhs = .ok joined) (share : Int64 → Nat) :
    joined.weigh share =
      lhs.weigh fun left => rhs.weigh fun right =>
        share (operator.value left right) := by
  have moved : ∀ outcome,
      joined.frequency outcome * share outcome =
        lhs.weigh fun left => rhs.weigh fun right =>
          (if operator.value left right = outcome then 1 else 0) * share outcome := by
    intro outcome
    simp only [frequency_convolve success, weigh_mul]
  have single : ∀ left ∈ lhs.outcomes, ∀ right ∈ rhs.outcomes,
      (∑ outcome ∈ joined.outcomes.toFinset,
        (if operator.value left right = outcome then 1 else 0) * share outcome) =
      share (operator.value left right) := by
    intro left leftMember right rightMember
    have member : operator.value left right ∈ joined.outcomes :=
      (mem_outcomes_convolve success).mpr ⟨left, leftMember, right, rightMember, rfl⟩
    simp [member]
  calc
    joined.weigh share
        = ∑ outcome ∈ joined.outcomes.toFinset,
            lhs.weigh fun left => rhs.weigh fun right =>
              (if operator.value left right = outcome then 1 else 0) * share outcome :=
          Finset.sum_congr rfl fun outcome _ => moved outcome
    _ = lhs.weigh fun left => rhs.weigh fun right =>
          ∑ outcome ∈ joined.outcomes.toFinset,
            (if operator.value left right = outcome then 1 else 0) * share outcome := by
        simp only [weigh_sum]
    _ = lhs.weigh fun left => rhs.weigh fun right =>
          share (operator.value left right) :=
        weigh_congr fun left leftMember =>
          weigh_congr fun right rightMember => single left leftMember right rightMember

/-- A join is found as soon as every pair has a result. -/
theorem exists_convolve
    (applicable : ∀ left ∈ lhs.outcomes, ∀ right ∈ rhs.outcomes,
      ∃ result, operator.apply left right = .ok result) :
    ∃ joined, convolve none operator lhs rhs = .ok joined := by
  cases found : convolve none operator lhs rhs with
  | ok joined => exact ⟨joined, rfl⟩
  | error fault =>
      obtain ⟨left, leftMember, right, rightMember, failed⟩ := exists_fault_of_convolve found
      obtain ⟨result, applied⟩ := applicable left leftMember right rightMember
      rw [applied] at failed
      contradiction

end Joining

/-- Pairs are tried by ascending left outcomes, and by ascending right outcomes for
each of them. -/
def Earlier (before after : Int64 × Int64) : Prop :=
  before.1 < after.1 ∨ before.1 = after.1 ∧ before.2 < after.2

theorem Earlier.not_reverse {before after : Int64 × Int64} (earlier : Earlier before after) :
    ¬ Earlier after before ∧ before ≠ after := by
  simp only [Earlier, Ne, Prod.ext_iff, ← Int64.toInt_inj, Int64.lt_iff_toInt_lt] at *
  omega

theorem pairs_ascending (lhs rhs : Distribution) :
    (lhs.pairs rhs).Pairwise fun before after =>
      Earlier (before.1.1, before.2.1) (after.1.1, after.2.1) := by
  rw [pairs, List.pairwise_flatMap]
  constructor
  · intro left _
    apply List.Pairwise.map _ _ rhs.entries_ascending
    intro before after ascending
    exact .inr ⟨rfl, ascending⟩
  · apply lhs.entries_ascending.imp
    intro before after ascending first firstMember second secondMember
    obtain ⟨_, _, rfl⟩ := List.mem_map.mp firstMember
    obtain ⟨_, _, rfl⟩ := List.mem_map.mp secondMember
    exact .inl ascending

/-- The first pair of outcomes without a result has none because of the fault. -/
def FirstRefusal (operator : Operator) (lhs rhs : Distribution) (fault : EvalFault) :
    Prop :=
  ∃ left ∈ lhs.outcomes, ∃ right ∈ rhs.outcomes, operator.Refuses left right fault ∧
    ∀ otherLeft ∈ lhs.outcomes, ∀ otherRight ∈ rhs.outcomes,
      Earlier (otherLeft, otherRight) (left, right) →
        ∀ cause, ¬ operator.Refuses otherLeft otherRight cause

theorem firstRefusal_of_convolve {operator : Operator} {lhs rhs : Distribution}
    {fault : EvalFault} (failure : convolve none operator lhs rhs = .error fault) :
    FirstRefusal operator lhs rhs fault := by
  rw [convolve_none] at failure
  obtain ⟨earlier, ⟨left, right⟩, later, split, failed, passed⟩ :=
    exists_first_fault_of_foldlM_joinPair failure
  have listed : (left, right) ∈ lhs.pairs rhs := by simp [split]
  obtain ⟨leftMember, rightMember⟩ := mem_pairs_iff.mp listed
  refine ⟨left.1, List.mem_map_of_mem leftMember, right.1, List.mem_map_of_mem rightMember,
    Operator.apply_eq_error_iff.mp failed, ?_⟩
  intro _ otherLeftMember _ otherRightMember before cause
  obtain ⟨otherLeft, otherLeftEntry, rfl⟩ := List.mem_map.mp otherLeftMember
  obtain ⟨otherRight, otherRightEntry, rfl⟩ := List.mem_map.mp otherRightMember
  have ascending := lhs.pairs_ascending rhs
  have member : (otherLeft, otherRight) ∈ lhs.pairs rhs :=
    mem_pairs_iff.mpr ⟨otherLeftEntry, otherRightEntry⟩
  rw [split, List.pairwise_append, List.pairwise_cons] at ascending
  rw [split, List.mem_append, List.mem_cons] at member
  rcases member with member | same | member
  · exact Operator.exists_apply_iff.mp (passed _ member) cause
  · cases same
    exact (before.not_reverse.2 rfl).elim
  · exact (before.not_reverse.1 (ascending.2.1.1 _ member)).elim

/-- Weighing a condition on the pairs adds up the products of their frequencies. -/
theorem weigh_pairs_eq_sum (lhs rhs : Distribution) (holds : Int64 → Int64 → Prop)
    [∀ left right, Decidable (holds left right)] :
    (lhs.weigh fun left => rhs.weigh fun right => if holds left right then 1 else 0) =
      ∑ pair ∈ (lhs.outcomes.toFinset ×ˢ rhs.outcomes.toFinset).filter
          fun pair => holds pair.1 pair.2,
        lhs.frequency pair.1 * rhs.frequency pair.2 := by
  simp only [weigh, Finset.mul_sum, mul_ite, Nat.mul_one, Nat.mul_zero]
  rw [Finset.sum_filter, Finset.sum_product]

section Results

variable {operator : Operator} {lhs rhs joined : Distribution}

/-- The outcomes of a join are the exact results. -/
theorem mem_outcomes_convolve_exact
    (success : convolve none operator lhs rhs = .ok joined) (outcome : Int64) :
    outcome ∈ joined.outcomes ↔
      ∃ left ∈ lhs.outcomes, ∃ right ∈ rhs.outcomes,
        operator.exact left.toInt right.toInt = outcome.toInt := by
  have applicable := applicable_of_convolve success
  rw [mem_outcomes_convolve success]
  constructor
  · rintro ⟨left, leftMember, right, rightMember, value⟩
    obtain ⟨_, applied⟩ := applicable left leftMember right rightMember
    exact ⟨left, leftMember, right, rightMember,
      (Operator.value_eq_iff applied outcome).mp value⟩
  · rintro ⟨left, leftMember, right, rightMember, exact⟩
    obtain ⟨_, applied⟩ := applicable left leftMember right rightMember
    exact ⟨left, leftMember, right, rightMember,
      (Operator.value_eq_iff applied outcome).mpr exact⟩

/-- The frequency of a result adds up over the pairs that give it exactly. -/
theorem frequency_convolve_exact
    (success : convolve none operator lhs rhs = .ok joined) (outcome : Int64) :
    joined.frequency outcome =
      ∑ pair ∈ (lhs.outcomes.toFinset ×ˢ rhs.outcomes.toFinset).filter
          fun pair => operator.exact pair.1.toInt pair.2.toInt = outcome.toInt,
        lhs.frequency pair.1 * rhs.frequency pair.2 := by
  have applicable := applicable_of_convolve success
  rw [frequency_convolve success, weigh_pairs_eq_sum]
  apply Finset.sum_congr _ fun _ _ => rfl
  apply Finset.filter_congr
  rintro ⟨left, right⟩ member
  rw [Finset.mem_product, List.mem_toFinset, List.mem_toFinset] at member
  obtain ⟨_, applied⟩ := applicable left member.1 right member.2
  exact Operator.value_eq_iff applied outcome

theorem total_convolve (success : convolve none operator lhs rhs = .ok joined) :
    joined.total = lhs.total * rhs.total := by
  rw [total_eq_weigh, weigh_convolve success, total_eq_weigh lhs, ← weigh_mul,
    total_eq_weigh rhs]
  simp only [Nat.one_mul]

end Results

section Capped

variable {cap : Cap} {operator : Operator} {lhs rhs : Distribution}

theorem convolve_of_within
    (within : ∀ limit, cap = some limit → lhs.size * rhs.size ≤ limit) :
    convolve cap operator lhs rhs = convolve none operator lhs rhs := by
  have checked : cap.check (lhs.size * rhs.size) .tooManyCombinations = .ok () :=
    Cap.check_eq_ok_iff.mpr within
  rw [convolve, checked]
  rfl

/-- Only the cap refuses a join for the number of its pairs. -/
theorem convolve_eq_tooManyCombinations_iff {limit : Nat} :
    convolve cap operator lhs rhs = .error (.tooManyCombinations limit) ↔
      cap = some limit ∧ limit < lhs.size * rhs.size := by
  constructor
  · intro failure
    rcases error_of_bind_error failure with refused | ⟨_, _, failed⟩
    · obtain ⟨_, capped, above, same⟩ := Cap.check_eq_error_iff.mp refused
      cases same
      exact ⟨capped, above⟩
    · have uncapped : convolve none operator lhs rhs =
          .error (.tooManyCombinations limit) := failed
      obtain ⟨_, _, _, _, refusal, _⟩ := firstRefusal_of_convolve uncapped
      cases refusal
  · rintro ⟨rfl, above⟩
    have refused : Cap.check (some limit) (lhs.size * rhs.size) .tooManyCombinations =
        .error (.tooManyCombinations limit) :=
      Cap.check_eq_error_iff.mpr ⟨limit, rfl, above, rfl⟩
    rw [convolve, refused]
    rfl

end Capped

/-- A join is refused by the cap exactly when there are more pairs than it allows.
Otherwise it fails with the fault of the first pair whose exact result divides by zero or
is not a word, if there is one, and else holds the exact results of all pairs, each with
the products of the frequencies added up over the pairs that give it. -/
theorem convolve_pushes_forward (cap : Cap) (operator : Operator)
    (lhs rhs : Distribution) :
    (∀ limit, convolve cap operator lhs rhs = .error (.tooManyCombinations limit) ↔
      cap = some limit ∧ limit < lhs.size * rhs.size) ∧
    ((∀ limit, cap = some limit → lhs.size * rhs.size ≤ limit) →
      ((∃ left ∈ lhs.outcomes, ∃ right ∈ rhs.outcomes, ∃ cause,
          operator.Refuses left right cause) →
        ∃ fault, FirstRefusal operator lhs rhs fault ∧
          convolve cap operator lhs rhs = .error fault) ∧
      ((∀ left ∈ lhs.outcomes, ∀ right ∈ rhs.outcomes, ∀ cause,
          ¬ operator.Refuses left right cause) →
        ∃ joined, convolve cap operator lhs rhs = .ok joined ∧
          (∀ outcome, outcome ∈ joined.outcomes ↔
            ∃ left ∈ lhs.outcomes, ∃ right ∈ rhs.outcomes,
              operator.exact left.toInt right.toInt = outcome.toInt) ∧
          (∀ outcome, joined.frequency outcome =
            ∑ pair ∈ (lhs.outcomes.toFinset ×ˢ rhs.outcomes.toFinset).filter
                fun pair => operator.exact pair.1.toInt pair.2.toInt = outcome.toInt,
              lhs.frequency pair.1 * rhs.frequency pair.2) ∧
          joined.total = lhs.total * rhs.total)) := by
  refine ⟨fun limit => convolve_eq_tooManyCombinations_iff, ?_⟩
  intro within
  rw [convolve_of_within within]
  constructor
  · rintro ⟨left, leftMember, right, rightMember, cause, refused⟩
    cases found : convolve none operator lhs rhs with
    | error fault => exact ⟨fault, firstRefusal_of_convolve found, rfl⟩
    | ok joined =>
        have applied := applicable_of_convolve found left leftMember right rightMember
        exact (Operator.exists_apply_iff.mp applied cause refused).elim
  · intro unrefused
    obtain ⟨joined, success⟩ := exists_convolve fun left leftMember right rightMember =>
      Operator.exists_apply_iff.mpr (unrefused left leftMember right rightMember)
    exact ⟨joined, success, mem_outcomes_convolve_exact success,
      frequency_convolve_exact success, total_convolve success⟩

/-- Quotients that meet, with an outcome that never comes about among them, and a
quotient that is not a word in front of two divisions by zero. -/
theorem quotients_push_forward :
    let lhs := ofList [(-7, 2), (0, 0), (7, 1)]
    let rhs := ofList [(-2, 1), (2, 3)]
    let least := ofList [(Int64.minValue, 1), (3, 1)]
    let unsound := ofList [(-1, 1), (0, 1)]
    convolve (some 5) .div lhs rhs = .error (.tooManyCombinations 5) ∧
    (∃ joined, convolve (some 6) .div lhs rhs = .ok joined ∧
      0 ∈ joined.outcomes ∧ joined.frequency 0 = 0 ∧ joined.frequency (-3) = 7 ∧
        joined.total = 12) ∧
    ∃ fault, FirstRefusal .div least unsound fault ∧
      convolve none .div least unsound = .error fault := by
  intro lhs rhs least unsound
  obtain ⟨refused, _⟩ := convolve_pushes_forward (some 5) .div lhs rhs
  obtain ⟨_, allowed⟩ := convolve_pushes_forward (some 6) .div lhs rhs
  obtain ⟨_, failing⟩ := convolve_pushes_forward none .div least unsound
  have left : lhs.outcomes = [-7, 0, 7] := by decide +kernel
  have right : rhs.outcomes = [-2, 2] := by decide +kernel
  have room : ∀ limit, some 6 = some limit → lhs.size * rhs.size ≤ limit := by
    intro limit same
    cases same
    decide +kernel
  have unrefused : ∀ outcome ∈ lhs.outcomes, ∀ other ∈ rhs.outcomes, ∀ cause,
      ¬ Operator.div.Refuses outcome other cause := by
    simp only [left, right, List.forall_mem_cons, ← Operator.exists_apply_iff]
    exact ⟨⟨⟨3, rfl⟩, ⟨-3, rfl⟩, by simp⟩, ⟨⟨0, rfl⟩, ⟨0, rfl⟩, by simp⟩,
      ⟨⟨-3, rfl⟩, ⟨3, rfl⟩, by simp⟩, by simp⟩
  obtain ⟨joined, success, outcomes, frequency, total⟩ := (allowed room).2 unrefused
  refine ⟨(refused 5).mpr ⟨rfl, by decide +kernel⟩, ⟨joined, success, ?_, ?_, ?_, ?_⟩, ?_⟩
  · exact (outcomes 0).mpr ⟨0, by simp [left], 2, by simp [right], by decide⟩
  · rw [frequency]
    decide +kernel
  · rw [frequency]
    decide +kernel
  · rw [total]
    decide +kernel
  · have divided : Operator.div.Refuses 3 0 .divisionByZero := .zeroDivisor rfl rfl
    exact (failing (by simp)).1 ⟨3, by decide +kernel, 0, by decide +kernel, _, divided⟩

end Distribution

end DiceOdds
