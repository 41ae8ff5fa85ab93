import DiceOdds.Proofs.PushForward

/-!
# Algebra of joins

Sums and products of distributions do not depend on the order of the operands, down to
the fault of a join that fails, nor on the grouping as long as no result on the way
leaves the words.  The certain outcomes zero and one on the right leave a distribution
as it is.
-/

namespace DiceOdds

/-- Sums and products do not depend on the order or the grouping of their operands. -/
def Operator.Symmetric (operator : Operator) : Prop :=
  operator = .add ∨ operator = .mul

/-- The right operand that changes nothing. -/
def Operator.neutral : Operator → Int64
  | .add => 0
  | .sub => 0
  | .mul => 1
  | .div => 1

namespace Operator.Symmetric

variable {operator : Operator}

theorem exact_comm (symmetric : operator.Symmetric) (lhs rhs : Int) :
    operator.exact lhs rhs = operator.exact rhs lhs := by
  rcases symmetric with rfl | rfl
  · exact Int.add_comm lhs rhs
  · exact Int.mul_comm lhs rhs

theorem exact_assoc (symmetric : operator.Symmetric) (lhs mid rhs : Int) :
    operator.exact (operator.exact lhs mid) rhs =
      operator.exact lhs (operator.exact mid rhs) := by
  rcases symmetric with rfl | rfl
  · exact Int.add_assoc lhs mid rhs
  · exact Int.mul_assoc lhs mid rhs

theorem apply_eq (symmetric : operator.Symmetric) (lhs rhs : Int64) :
    operator.apply lhs rhs = toWord (operator.exact lhs.toInt rhs.toInt) := by
  rcases symmetric with rfl | rfl
  · rfl
  · rfl

theorem apply_comm (symmetric : operator.Symmetric) (lhs rhs : Int64) :
    operator.apply lhs rhs = operator.apply rhs lhs := by
  rw [symmetric.apply_eq, symmetric.apply_eq, symmetric.exact_comm]

theorem value_comm (symmetric : operator.Symmetric) (lhs rhs : Int64) :
    operator.value lhs rhs = operator.value rhs lhs := by
  rw [Operator.value, Operator.value, symmetric.exact_comm]

theorem overflow_of_refuses (symmetric : operator.Symmetric) {lhs rhs : Int64}
    {fault : EvalFault} (refused : operator.Refuses lhs rhs fault) :
    fault = .overflow := by
  cases refused with
  | zeroDivisor divides zero =>
      rcases symmetric with rfl | rfl
      · contradiction
      · contradiction
  | noWord defined wide => rfl

/-- Results in either grouping are equal when those on the way are words. -/
theorem value_assoc (symmetric : operator.Symmetric) {lhs mid rhs earlier later : Int64}
    (leftApplied : operator.apply lhs mid = .ok earlier)
    (rightApplied : operator.apply mid rhs = .ok later) :
    operator.value earlier rhs = operator.value lhs later := by
  rw [Operator.value, Operator.value, ← Operator.exact_of_apply leftApplied,
    ← Operator.exact_of_apply rightApplied, symmetric.exact_assoc]

end Operator.Symmetric

theorem Operator.exact_neutral (operator : Operator) (lhs : Int) :
    operator.exact lhs operator.neutral.toInt = lhs := by
  have zero : (0 : Int64).toInt = 0 := rfl
  have one : (1 : Int64).toInt = 1 := rfl
  cases operator with
  | add => rw [Operator.neutral, zero, Operator.exact, Int.add_zero]
  | sub => rw [Operator.neutral, zero, Operator.exact, Int.sub_zero]
  | mul => rw [Operator.neutral, one, Operator.exact, Int.mul_one]
  | div => rw [Operator.neutral, one, Operator.exact, Int.tdiv_one]

theorem Operator.apply_neutral (operator : Operator) (lhs : Int64) :
    operator.apply lhs operator.neutral = .ok lhs := by
  have nonzero : ¬ (operator = .div ∧ operator.neutral = 0) := by
    rintro ⟨rfl, zero⟩
    contradiction
  have word : isWord lhs.toInt := ⟨Int64.le_toInt lhs, Int64.toInt_lt lhs⟩
  rw [Operator.apply, if_neg nonzero, Operator.exact_neutral, toWord_of_isWord word,
    Int64.ofInt_toInt]

namespace Distribution

theorem mem_outcomes_singleton {outcome query : Int64} :
    query ∈ (singleton outcome).outcomes ↔ outcome = query := by
  simp only [mem_outcomes_iff, singleton, frequency?_put]
  by_cases same : outcome = query
  · simp [same]
  · simp [same]

theorem weigh_singleton (outcome : Int64) (share : Int64 → Nat) :
    (singleton outcome).weigh share = share outcome := by
  have outcomes : (singleton outcome).outcomes.toFinset = {outcome} := by
    ext query
    rw [List.mem_toFinset, mem_outcomes_singleton, Finset.mem_singleton, eq_comm]
  have frequency : (singleton outcome).frequency outcome = 1 := by
    simp [Distribution.frequency, singleton, frequency?_put]
  rw [weigh, outcomes, Finset.sum_singleton, frequency, Nat.one_mul]

section Commuting

variable {operator : Operator} {lhs rhs : Distribution}

theorem eq_of_convolve_swapped (symmetric : operator.Symmetric)
    {joined swapped : Distribution}
    (success : convolve none operator lhs rhs = .ok joined)
    (swappedSuccess : convolve none operator rhs lhs = .ok swapped) :
    joined = swapped := by
  apply ext_frequency
  · intro outcome
    rw [mem_outcomes_convolve success, mem_outcomes_convolve swappedSuccess]
    constructor
    · rintro ⟨left, leftMember, right, rightMember, value⟩
      exact ⟨right, rightMember, left, leftMember, by rw [symmetric.value_comm, value]⟩
    · rintro ⟨right, rightMember, left, leftMember, value⟩
      exact ⟨left, leftMember, right, rightMember, by rw [symmetric.value_comm, value]⟩
  · intro outcome
    rw [frequency_convolve success, frequency_convolve swappedSuccess, weigh_comm]
    simp only [symmetric.value_comm]

/-- A sum or product that fails overflows, whatever pair it is that has no result. -/
theorem convolve_overflow (symmetric : operator.Symmetric) {fault : EvalFault}
    (failure : convolve none operator lhs rhs = .error fault) : fault = .overflow := by
  obtain ⟨left, _, right, _, refused, _⟩ := firstRefusal_of_convolve failure
  exact symmetric.overflow_of_refuses refused

theorem exists_convolve_swapped (symmetric : operator.Symmetric) {joined : Distribution}
    (success : convolve none operator lhs rhs = .ok joined) :
    ∃ swapped, convolve none operator rhs lhs = .ok swapped := by
  apply exists_convolve
  intro right rightMember left leftMember
  rw [symmetric.apply_comm]
  exact applicable_of_convolve success left leftMember right rightMember

theorem convolve_none_comm (symmetric : operator.Symmetric) (lhs rhs : Distribution) :
    convolve none operator lhs rhs = convolve none operator rhs lhs := by
  cases found : convolve none operator lhs rhs with
  | ok joined =>
      obtain ⟨swapped, success⟩ := exists_convolve_swapped symmetric found
      rw [success, eq_of_convolve_swapped symmetric found success]
  | error fault =>
      cases swappedFound : convolve none operator rhs lhs with
      | ok swapped =>
          obtain ⟨joined, success⟩ := exists_convolve_swapped symmetric swappedFound
          rw [success] at found
          contradiction
      | error swappedFault =>
          rw [convolve_overflow symmetric found, convolve_overflow symmetric swappedFound]

theorem convolve_eq_check (cap : Cap) (operator : Operator) (lhs rhs : Distribution) :
    convolve cap operator lhs rhs = (do
      cap.check (lhs.size * rhs.size) .tooManyCombinations
      convolve none operator lhs rhs) :=
  rfl

theorem convolve_comm (symmetric : operator.Symmetric) (cap : Cap)
    (lhs rhs : Distribution) :
    convolve cap operator lhs rhs = convolve cap operator rhs lhs := by
  rw [convolve_eq_check, Nat.mul_comm, convolve_none_comm symmetric, ← convolve_eq_check]

end Commuting

/-- Either grouping of two sums or two products has the same outcomes and frequencies,
those of the triples. -/
theorem eq_of_convolve_regrouped {operator : Operator} (symmetric : operator.Symmetric)
    {lhs mid rhs earlier later first last : Distribution}
    (earlierSuccess : convolve none operator lhs mid = .ok earlier)
    (firstSuccess : convolve none operator earlier rhs = .ok first)
    (laterSuccess : convolve none operator mid rhs = .ok later)
    (lastSuccess : convolve none operator lhs later = .ok last) :
    first = last := by
  have regrouped : ∀ left ∈ lhs.outcomes, ∀ middle ∈ mid.outcomes,
      ∀ right ∈ rhs.outcomes,
        operator.value (operator.value left middle) right =
          operator.value left (operator.value middle right) := by
    intro left leftMember middle middleMember right rightMember
    obtain ⟨_, leftApplied⟩ :=
      applicable_of_convolve earlierSuccess left leftMember middle middleMember
    obtain ⟨_, rightApplied⟩ :=
      applicable_of_convolve laterSuccess middle middleMember right rightMember
    rw [Operator.value_of_apply leftApplied, Operator.value_of_apply rightApplied,
      symmetric.value_assoc leftApplied rightApplied]
  apply ext_frequency
  · intro outcome
    simp only [mem_outcomes_convolve firstSuccess, mem_outcomes_convolve lastSuccess,
      mem_outcomes_convolve earlierSuccess, mem_outcomes_convolve laterSuccess]
    constructor
    · rintro ⟨_, ⟨left, leftMember, middle, middleMember, rfl⟩, right, rightMember, value⟩
      refine ⟨left, leftMember, _, ⟨middle, middleMember, right, rightMember, rfl⟩, ?_⟩
      rw [← regrouped left leftMember middle middleMember right rightMember, value]
    · rintro ⟨left, leftMember, _, ⟨middle, middleMember, right, rightMember, rfl⟩, value⟩
      refine ⟨_, ⟨left, leftMember, middle, middleMember, rfl⟩, right, rightMember, ?_⟩
      rw [regrouped left leftMember middle middleMember right rightMember, value]
  · intro outcome
    rw [frequency_convolve firstSuccess, frequency_convolve lastSuccess,
      weigh_convolve earlierSuccess]
    apply weigh_congr
    intro left leftMember
    rw [weigh_convolve laterSuccess]
    apply weigh_congr
    intro middle middleMember
    apply weigh_congr
    intro right rightMember
    rw [regrouped left leftMember middle middleMember right rightMember]

/-- Joining with the neutral outcome on the right changes nothing. -/
theorem convolve_neutral (operator : Operator) (distribution : Distribution) :
    convolve none operator distribution (singleton operator.neutral) =
      .ok distribution := by
  obtain ⟨joined, success⟩ :
      ∃ joined, convolve none operator distribution (singleton operator.neutral) =
        .ok joined := by
    apply exists_convolve
    intro left _ right rightMember
    rw [← mem_outcomes_singleton.mp rightMember]
    exact ⟨left, operator.apply_neutral left⟩
  have value : ∀ left, operator.value left operator.neutral = left := fun left =>
    Operator.value_of_apply (operator.apply_neutral left)
  rw [success]
  apply congrArg
  apply ext_frequency
  · intro outcome
    simp only [mem_outcomes_convolve success, mem_outcomes_singleton, exists_eq_left',
      value, exists_eq_right]
  · intro outcome
    rw [frequency_convolve success, frequency_eq_weigh distribution]
    simp only [weigh_singleton, value]

/-- Sums and products commute as full results, faults and caps included; both groupings
of two of them that are found are equal; and zero is a right identity of sums and
differences, one a right identity of products and quotients. -/
theorem convolve_algebra (lhs mid rhs : Distribution) :
    (∀ operator : Operator, operator = .add ∨ operator = .mul →
      (∀ cap, convolve cap operator lhs rhs = convolve cap operator rhs lhs) ∧
      ∀ first last,
        (do
          let joined ← convolve none operator lhs mid
          convolve none operator joined rhs) = .ok first →
        (do
          let joined ← convolve none operator mid rhs
          convolve none operator lhs joined) = .ok last →
        first = last) ∧
    (∀ operator : Operator, operator = .add ∨ operator = .sub →
      convolve none operator lhs (singleton 0) = .ok lhs) ∧
    ∀ operator : Operator, operator = .mul ∨ operator = .div →
      convolve none operator lhs (singleton 1) = .ok lhs := by
  refine ⟨?_, ?_, ?_⟩
  · intro operator symmetric
    refine ⟨fun cap => convolve_comm symmetric cap lhs rhs, ?_⟩
    intro first last firstSuccess lastSuccess
    obtain ⟨earlier, earlierSuccess, firstSuccess⟩ := exists_of_bind_ok firstSuccess
    obtain ⟨later, laterSuccess, lastSuccess⟩ := exists_of_bind_ok lastSuccess
    exact eq_of_convolve_regrouped symmetric earlierSuccess firstSuccess laterSuccess
      lastSuccess
  · rintro operator (rfl | rfl)
    · exact convolve_neutral .add lhs
    · exact convolve_neutral .sub lhs
  · rintro operator (rfl | rfl)
    · exact convolve_neutral .mul lhs
    · exact convolve_neutral .div lhs

/-- Products that meet, with an outcome that never comes about among them. -/
theorem products_of_coins_regroup :
    let lhs := ofList [(-1, 1), (1, 2)]
    let mid := ofList [(-1, 3), (1, 0)]
    let rhs := singleton 5
    convolve (some 1) .mul lhs mid = convolve (some 1) .mul mid lhs ∧
    (∃ joined,
      (do
        let joined ← convolve none .mul lhs mid
        convolve none .mul joined rhs) = .ok joined ∧
      (do
        let joined ← convolve none .mul mid rhs
        convolve none .mul lhs joined) = .ok joined) ∧
    convolve none .div lhs (singleton 1) = .ok lhs := by
  intro lhs mid rhs
  obtain ⟨swapped, _, _⟩ := convolve_algebra lhs lhs mid
  obtain ⟨regrouped, _, unchanged⟩ := convolve_algebra lhs mid rhs
  obtain ⟨first, firstFound⟩ : ∃ first, (do
      let joined ← convolve none .mul lhs mid
      convolve none .mul joined rhs) = .ok first := ⟨_, rfl⟩
  obtain ⟨last, lastFound⟩ : ∃ last, (do
      let joined ← convolve none .mul mid rhs
      convolve none .mul lhs joined) = .ok last := ⟨_, rfl⟩
  have same := (regrouped .mul (.inr rfl)).2 first last firstFound lastFound
  subst same
  exact ⟨(swapped .mul (.inr rfl)).1 (some 1), ⟨first, firstFound, lastFound⟩,
    unchanged .div (.inr rfl)⟩

end Distribution

end DiceOdds
