import DiceOdds.Proofs.EvaluationFaults

/-!
# Limits refuse and change nothing else

Computing a distribution under two caps of which one is within the other goes the
same way step by step, until the tighter cap refuses.  A cap is asked before the
work that it bounds is done, and about the same amount in both computations, since
everything before it has come out alike.
-/

namespace DiceOdds

/-- The tighter cap refuses whatever the looser one does. -/
def Cap.Within (tight loose : Cap) : Prop :=
  ∀ limit, loose = some limit → ∃ smaller, tight = some smaller ∧ smaller ≤ limit

theorem Cap.within_none (cap : Cap) : cap.Within none := by
  intro limit absurd
  contradiction

theorem Cap.check_of_within {tight loose : Cap} (within : tight.Within loose)
    {amount : Nat} {fault : Nat → EvalFault}
    (passed : tight.check amount fault = .ok ()) : loose.check amount fault = .ok () := by
  cases checked : loose.check amount fault with
  | ok _ => rfl
  | error refusal =>
      obtain ⟨limit, bounded, above, _⟩ := Cap.check_eq_error_iff.mp checked
      obtain ⟨smaller, tighter, below⟩ := within limit bounded
      have refused : tight.check amount fault = .error (fault smaller) :=
        Cap.check_eq_error_iff.mpr ⟨smaller, tighter, Nat.lt_of_le_of_lt below above, rfl⟩
      rw [passed] at refused
      contradiction

/-- Two attempts come out alike, unless a cap on combinations refuses the first. -/
def SameUnlessRefused {α : Type} (cap : Cap) (attempt other : Except EvalFault α) : Prop :=
  attempt = other ∨
    ∃ limit, cap = some limit ∧ attempt = .error (.tooManyCombinations limit)

theorem SameUnlessRefused.same {α : Type} {cap : Cap} (attempt : Except EvalFault α) :
    SameUnlessRefused cap attempt attempt :=
  .inl rfl

theorem SameUnlessRefused.bind {α β : Type} {cap : Cap}
    {attempt other : Except EvalFault α} {next otherNext : α → Except EvalFault β}
    (first : SameUnlessRefused cap attempt other)
    (second : ∀ value, SameUnlessRefused cap (next value) (otherNext value)) :
    SameUnlessRefused cap (attempt >>= next) (other >>= otherNext) := by
  rcases first with rfl | ⟨limit, bounded, rfl⟩
  · cases attempt with
    | error fault => exact .same _
    | ok value => exact second value
  · exact .inr ⟨limit, bounded, rfl⟩

section Caps

variable {tight loose : Cap}

theorem Cap.check_sameUnlessRefused (within : tight.Within loose) (amount : Nat) :
    SameUnlessRefused tight (tight.check amount .tooManyCombinations)
      (loose.check amount .tooManyCombinations) := by
  cases checked : tight.check amount .tooManyCombinations with
  | ok _ =>
      rw [Cap.check_of_within within checked]
      exact .same _
  | error refusal =>
      obtain ⟨limit, bounded, _, rfl⟩ := Cap.check_eq_error_iff.mp checked
      exact .inr ⟨limit, bounded, rfl⟩

theorem exactOdds_sameUnlessRefused (within : tight.Within loose) :
    (exactOdds tight).Related (exactOdds loose) fun _ => SameUnlessRefused tight where
  constant _ := .same _
  dice dice _ :=
    (SameUnlessRefused.same dice.validate).bind fun _ =>
      (Cap.check_sameUnlessRefused within dice.work).bind fun _ => .same _
  group inner := inner.bind fun _ => .same _
  combine _ left right :=
    left.bind fun lhs => right.bind fun rhs =>
      (Cap.check_sameUnlessRefused within (lhs.size * rhs.size)).bind fun _ => .same _

end Caps

variable {limits : Limits} {expression : Expression}

theorem Expression.distribution_of_deep {limit : Nat}
    (bounded : limits.maxDepth = some limit) (deep : limit < expression.depth) :
    expression.distribution limits = .error (.tooDeep expression.depth limit) := by
  have refused : limits.maxDepth.check expression.depth (.tooDeep expression.depth) =
      .error (.tooDeep expression.depth limit) :=
    Cap.check_eq_error_iff.mpr ⟨limit, bounded, deep, rfl⟩
  rw [Expression.distribution, refused]
  rfl

theorem Expression.distribution_of_shallow
    (passed : limits.maxDepth.check expression.depth (.tooDeep expression.depth) = .ok ()) :
    expression.distribution limits =
      expression.interpret (exactOdds limits.maxCombinations) := by
  rw [Expression.distribution, passed, ok_bind]

/-- Only the nesting of the whole expression is reported as such. -/
theorem Expression.interpret_ne_tooDeep (cap : Cap) (expression : Expression)
    (depth limit : Nat) :
    expression.interpret (exactOdds cap) ≠ .error (.tooDeep depth limit) := by
  intro failed
  cases expression.interpret_related (exactOdds_failsOnly cap) _ failed with
  | refused absurd =>
      obtain ⟨_, absurd⟩ := absurd
      contradiction

theorem Expression.distribution_eq_tooDeep_iff {depth limit : Nat} :
    expression.distribution limits = .error (.tooDeep depth limit) ↔
      depth = expression.depth ∧ limits.maxDepth = some limit ∧
        limit < expression.depth := by
  constructor
  · intro failed
    rcases error_of_bind_error failed with refused | ⟨_, _, absurd⟩
    · obtain ⟨_, bounded, deep, same⟩ := Cap.check_eq_error_iff.mp refused
      cases same
      exact ⟨rfl, bounded, deep⟩
    · exact (expression.interpret_ne_tooDeep _ _ _ absurd).elim
  · rintro ⟨rfl, bounded, deep⟩
    exact Expression.distribution_of_deep bounded deep

/-- What is found under some limits is found under looser ones. -/
theorem Expression.distribution_of_within {looser : Limits} {distribution : Distribution}
    (combinations : limits.maxCombinations.Within looser.maxCombinations)
    (nesting : limits.maxDepth.Within looser.maxDepth)
    (success : expression.distribution limits = .ok distribution) :
    expression.distribution looser = .ok distribution := by
  obtain ⟨_, passed, found⟩ := exists_of_bind_ok success
  rw [Expression.distribution_of_shallow (Cap.check_of_within nesting passed)]
  rcases expression.interpret_related (exactOdds_sameUnlessRefused combinations) with
    same | ⟨_, _, refused⟩
  · rw [← same, found]
  · rw [found] at refused
    contradiction

/-- Limits do nothing to a distribution but refuse it.  It comes out as without
limits, or it is refused for its nesting or for its work, in the name of the limit
in force.  It is refused for its nesting exactly when it is nested too deeply,
whatever else is wrong with it.  The cap on rolls does not matter, and what is found
under some limits is found under all looser ones. -/
theorem Expression.distribution_refused_or_same (limits : Limits)
    (expression : Expression) :
    (expression.distribution limits = expression.distribution .unbounded ∨
      (∃ limit, limits.maxDepth = some limit ∧
        expression.distribution limits = .error (.tooDeep expression.depth limit)) ∨
      ∃ limit, limits.maxCombinations = some limit ∧
        expression.distribution limits = .error (.tooManyCombinations limit)) ∧
    (∀ depth limit, expression.distribution limits = .error (.tooDeep depth limit) ↔
      depth = expression.depth ∧ limits.maxDepth = some limit ∧
        limit < expression.depth) ∧
    (∀ cap, expression.distribution { limits with maxRolls := cap } =
      expression.distribution limits) ∧
    ∀ looser : Limits, limits.maxCombinations.Within looser.maxCombinations →
      limits.maxDepth.Within looser.maxDepth → ∀ distribution,
        expression.distribution limits = .ok distribution →
          expression.distribution looser = .ok distribution := by
  refine ⟨?_, fun _ _ => Expression.distribution_eq_tooDeep_iff, fun _ => rfl, ?_⟩
  · have unbounded : expression.distribution .unbounded =
        expression.interpret (exactOdds none) := rfl
    cases checked : limits.maxDepth.check expression.depth (.tooDeep expression.depth) with
    | error refusal =>
        obtain ⟨limit, bounded, deep, _⟩ := Cap.check_eq_error_iff.mp checked
        exact .inr (.inl ⟨limit, bounded, Expression.distribution_of_deep bounded deep⟩)
    | ok _ =>
        rw [unbounded, Expression.distribution_of_shallow checked]
        rcases expression.interpret_related
            (exactOdds_sameUnlessRefused limits.maxCombinations.within_none) with
          same | refused
        · exact .inl same
        · exact .inr (.inr refused)
  · intro looser combinations nesting distribution
    exact Expression.distribution_of_within combinations nesting

/-- A group times a die, with just enough room for its nesting and its pairs, and
with more of it. -/
theorem group_times_die_found_with_more_room :
    let expression := Expression.term (.combine
      (.atom (.group (.ofAtom (.dice (.sum 1 (.numbered 2)) "1d2")))) .mul
      (.dice (.sum 1 (.numbered 3)) "1d3"))
    let limits : Limits :=
      { maxRolls := some 0, maxCombinations := some 6, maxDepth := some 1 }
    let looser : Limits :=
      { maxRolls := none, maxCombinations := some 7, maxDepth := none }
    ∃ distribution, expression.distribution limits = .ok distribution ∧
      expression.distribution looser = .ok distribution := by
  intro expression limits looser
  have combinations : limits.maxCombinations.Within looser.maxCombinations := by
    rintro limit ⟨⟩
    exact ⟨6, rfl, by decide⟩
  have nesting : limits.maxDepth.Within looser.maxDepth := Cap.within_none _
  cases success : expression.distribution limits with
  | error fault =>
      have absurd : (expression.distribution limits).isOk = true := by
        decide +kernel
      rw [success] at absurd
      contradiction
  | ok distribution =>
      obtain ⟨_, _, _, found⟩ := Expression.distribution_refused_or_same limits expression
      exact ⟨distribution, rfl, found looser combinations nesting distribution success⟩

end DiceOdds
