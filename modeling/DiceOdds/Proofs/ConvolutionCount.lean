import DiceOdds.Distribution.Convolution
import DiceOdds.Proofs.Attempts
import DiceOdds.Proofs.DrawVectors
import DiceOdds.Proofs.SignedWords
import Mathlib.Algebra.BigOperators.Ring.Finset
import Mathlib.Algebra.BigOperators.Ring.List
import Mathlib.Algebra.Group.Action.Defs

/-!
# Counting results

A distribution counts a list of results when it holds exactly the outcomes that
are listed, each with the number of its occurrences times a common weight.
Joining two distributions that count two lists counts the results of all pairs,
one from each list; a failed join has a pair that fails.
-/

namespace DiceOdds

theorem count_map_eq_sum {α β : Type} [DecidableEq β] (items : List α)
    (image : α → β) (query : β) :
    (items.map image).count query =
      (items.map fun item => if image item = query then 1 else 0).sum := by
  induction items with
  | nil => rfl
  | cons item items induction =>
      simp [List.count_cons, induction, Nat.add_comm]

theorem count_map_of_injOn {α β : Type} [DecidableEq α] [DecidableEq β]
    {items : List α} {image : α → β}
    (distinct : ∀ left ∈ items, ∀ right ∈ items, image left = image right → left = right)
    {item : α} (member : item ∈ items) :
    (items.map image).count (image item) = items.count item := by
  rw [List.count_eq_countP, List.countP_map, List.count_eq_countP]
  apply List.countP_congr
  intro other otherMember
  simp only [Function.comp_apply, beq_iff_eq]
  constructor
  · exact distinct other otherMember item member
  · exact congrArg image

namespace Distribution

theorem mem_outcomes_iff {distribution : Distribution} {outcome : Int64} :
    outcome ∈ distribution.outcomes ↔
      ∃ ways, distribution.frequency? outcome = some ways := by
  simp only [outcomes, List.mem_map, Prod.exists, exists_and_right,
    exists_eq_right, mem_entries_iff]

theorem outcomes_ascending (distribution : Distribution) :
    distribution.outcomes.Pairwise fun left right => left < right :=
  List.Pairwise.map Prod.fst (fun _ _ before => before) distribution.entries_ascending

theorem nodup_outcomes (distribution : Distribution) :
    distribution.outcomes.Nodup :=
  distribution.outcomes_ascending.imp Int64.ne_of_lt

theorem frequency_of_frequency? {distribution : Distribution} {outcome : Int64}
    {ways : Nat} (held : distribution.frequency? outcome = some ways) :
    distribution.frequency outcome = ways := by
  simp [frequency, held]

theorem frequency_of_not_mem {distribution : Distribution} {outcome : Int64}
    (absent : outcome ∉ distribution.outcomes) :
    distribution.frequency outcome = 0 := by
  cases held : distribution.frequency? outcome with
  | none => simp [frequency, held]
  | some ways => exact (absent (mem_outcomes_iff.mpr ⟨ways, held⟩)).elim

/-- The entries are the outcomes with their frequencies. -/
theorem entries_eq_map (distribution : Distribution) :
    distribution.entries =
      distribution.outcomes.map fun outcome =>
        (outcome, distribution.frequency outcome) := by
  rw [outcomes, List.map_map]
  conv_lhs => rw [← List.map_id distribution.entries]
  apply List.map_congr_left
  rintro ⟨outcome, ways⟩ member
  simp [frequency_of_frequency? (mem_entries_iff.mp member)]

theorem frequency_add (distribution : Distribution) (outcome query : Int64)
    (ways : Nat) :
    (distribution.add outcome ways).frequency query =
      distribution.frequency query + if outcome = query then ways else 0 := by
  by_cases same : outcome = query
  · subst query
    simp [frequency, frequency?_add]
  · simp [frequency, frequency?_add, same]

theorem mem_outcomes_add {distribution : Distribution} {outcome query : Int64}
    {ways : Nat} :
    query ∈ (distribution.add outcome ways).outcomes ↔
      outcome = query ∨ query ∈ distribution.outcomes := by
  simp only [mem_outcomes_iff, frequency?_add]
  by_cases same : outcome = query
  · simp [same]
  · simp [same]

theorem frequency_empty (query : Int64) : empty.frequency query = 0 := by
  simp [frequency]

theorem not_mem_outcomes_empty (query : Int64) : query ∉ empty.outcomes := by
  simp [mem_outcomes_iff]

private theorem frequency?_foldl_put {entries : List (Int64 × Nat)}
    (distinct : (entries.map Prod.fst).Nodup) (start : Distribution)
    (query : Int64) (ways : Nat) :
    (entries.foldl (fun filled entry => filled.put entry.1 entry.2) start).frequency?
        query = some ways ↔
      (query, ways) ∈ entries ∨
        query ∉ entries.map Prod.fst ∧ start.frequency? query = some ways := by
  induction entries generalizing start with
  | nil => simp
  | cons entry entries induction =>
      rw [List.map_cons, List.nodup_cons] at distinct
      rw [List.foldl_cons, induction distinct.2, frequency?_put, List.map_cons]
      by_cases same : entry.1 = query
      · subst query
        have later : (entry.1, ways) ∉ entries := fun member =>
          distinct.1 (List.mem_map.mpr ⟨_, member, rfl⟩)
        simp [distinct.1, later, Prod.ext_iff, eq_comm]
      · have other : (query, ways) ≠ entry := fun equality =>
          same (congrArg Prod.fst equality.symm)
        simp [same, Ne.symm same, other]

/-- A distribution made of entries with different outcomes holds just these. -/
theorem frequency?_ofList {entries : List (Int64 × Nat)}
    (distinct : (entries.map Prod.fst).Nodup) {query : Int64} {ways : Nat} :
    (ofList entries).frequency? query = some ways ↔ (query, ways) ∈ entries := by
  rw [ofList, frequency?_foldl_put distinct]
  simp

/-- The distribution holds exactly the outcomes among the results, each with the
number of its occurrences times a weight. -/
structure Counts (distribution : Distribution) (weight : Nat)
    (results : List Int64) : Prop where
  frequency : ∀ outcome,
    distribution.frequency outcome = weight * results.count outcome
  outcomes : ∀ outcome, outcome ∈ distribution.outcomes ↔ outcome ∈ results

theorem counts_of_frequency? {distribution : Distribution} {weight : Nat}
    {results : List Int64}
    (held : ∀ query ways, distribution.frequency? query = some ways ↔
      query ∈ results ∧ ways = weight * results.count query) :
    distribution.Counts weight results := by
  have members : ∀ query, query ∈ distribution.outcomes ↔ query ∈ results := by
    intro query
    simp [mem_outcomes_iff, held]
  constructor
  · intro query
    by_cases member : query ∈ results
    · exact frequency_of_frequency? ((held query _).mpr ⟨member, rfl⟩)
    · rw [List.count_eq_zero_of_not_mem member, Nat.mul_zero]
      exact frequency_of_not_mem fun absurd => member ((members query).mp absurd)
  · exact members

section Entries

variable {distribution : Distribution} {weight : Nat} {results : List Int64}

theorem Counts.mem_entries_iff (counts : distribution.Counts weight results)
    {result : Int64} {ways : Nat} :
    (result, ways) ∈ distribution.entries ↔
      result ∈ results ∧ ways = weight * results.count result := by
  rw [Distribution.mem_entries_iff]
  constructor
  · intro held
    refine ⟨(counts.outcomes result).mp (mem_outcomes_iff.mpr ⟨ways, held⟩), ?_⟩
    rw [← counts.frequency, frequency_of_frequency? held]
  · intro ⟨member, counted⟩
    obtain ⟨held, present⟩ := mem_outcomes_iff.mp ((counts.outcomes result).mpr member)
    rw [present, counted, ← counts.frequency, frequency_of_frequency? present]

theorem Counts.mem_of_entry (counts : distribution.Counts weight results)
    {entry : Int64 × Nat} (member : entry ∈ distribution.entries) :
    entry.1 ∈ results :=
  (counts.mem_entries_iff.mp member).1

end Entries

/-- A sum over the entries is a sum over the outcomes. -/
theorem sum_entries (distribution : Distribution) (share : Int64 → Nat) :
    (distribution.entries.map fun entry => entry.2 * share entry.1).sum =
      ∑ outcome ∈ distribution.outcomes.toFinset,
        distribution.frequency outcome * share outcome := by
  rw [entries_eq_map, List.map_map, List.sum_toFinset _ distribution.nodup_outcomes]
  rfl

/-- A sum over the entries is a sum over the results. -/
theorem Counts.sum_entries {distribution : Distribution} {weight : Nat}
    {results : List Int64} (counts : distribution.Counts weight results)
    (share : Int64 → Nat) :
    (distribution.entries.map fun entry => entry.2 * share entry.1).sum =
      weight * (results.map share).sum := by
  have sameOutcomes : distribution.outcomes.toFinset = results.toFinset := by
    ext outcome
    simp [counts.outcomes outcome]
  calc
    (distribution.entries.map fun entry => entry.2 * share entry.1).sum
        = ∑ outcome ∈ distribution.outcomes.toFinset,
            distribution.frequency outcome * share outcome :=
          Distribution.sum_entries distribution share
    _ = ∑ outcome ∈ results.toFinset,
          weight * (results.count outcome • share outcome) := by
        rw [sameOutcomes]
        apply Finset.sum_congr rfl
        intro outcome _
        rw [counts.frequency, smul_eq_mul, Nat.mul_assoc]
    _ = weight * (results.map share).sum := by
        rw [← Finset.mul_sum, Finset.sum_list_map_count]

theorem Counts.total {distribution : Distribution} {weight : Nat}
    {results : List Int64} (counts : distribution.Counts weight results) :
    distribution.total = weight * results.length := by
  have summed := counts.sum_entries fun _ => 1
  simpa [Distribution.total] using summed

/-- The pairs of entries in the order in which a join visits them. -/
def pairs (lhs rhs : Distribution) : List ((Int64 × Nat) × (Int64 × Nat)) :=
  lhs.entries.flatMap fun left => rhs.entries.map fun right => (left, right)

theorem mem_pairs_iff {lhs rhs : Distribution} {left right : Int64 × Nat} :
    (left, right) ∈ lhs.pairs rhs ↔
      left ∈ lhs.entries ∧ right ∈ rhs.entries := by
  simp [pairs]

/-- Adds the result of one pair. -/
def joinPair (operator : Operator) (joined : Distribution)
    (pair : (Int64 × Nat) × (Int64 × Nat)) : Except EvalFault Distribution := do
  let outcome ← operator.apply pair.1.1 pair.2.1
  return joined.add outcome (pair.1.2 * pair.2.2)

theorem convolve_none (operator : Operator) (lhs rhs : Distribution) :
    convolve none operator lhs rhs =
      (lhs.pairs rhs).foldlM (joinPair operator) empty := by
  rw [pairs, foldlM_flatMap]
  simp only [List.foldlM_map]
  rfl

theorem convolve_of_cap {cap : Cap} {operator : Operator}
    {lhs rhs joined : Distribution}
    (success : convolve cap operator lhs rhs = .ok joined) :
    convolve none operator lhs rhs = .ok joined := by
  unfold convolve at success ⊢
  cases checked : cap.check (lhs.size * rhs.size) .tooManyCombinations with
  | error fault =>
      rw [checked] at success
      contradiction
  | ok _ =>
      rw [checked] at success
      exact success

/-- What a join that does not fail adds up to. -/
theorem foldlM_joinPair_ok {operator : Operator}
    {pairs : List ((Int64 × Nat) × (Int64 × Nat))} {start joined : Distribution}
    (success : pairs.foldlM (joinPair operator) start = .ok joined) :
    (∀ pair ∈ pairs, ∃ result,
      operator.apply pair.1.1 pair.2.1 = .ok result) ∧
    (∀ outcome, joined.frequency outcome = start.frequency outcome +
      (pairs.map fun pair =>
        if operator.value pair.1.1 pair.2.1 = outcome then pair.1.2 * pair.2.2
        else 0).sum) ∧
    (∀ outcome, outcome ∈ joined.outcomes ↔ outcome ∈ start.outcomes ∨
      ∃ pair ∈ pairs, operator.value pair.1.1 pair.2.1 = outcome) := by
  induction pairs generalizing start with
  | nil =>
      cases success
      simp
  | cons pair pairs induction =>
      rw [List.foldlM_cons, joinPair] at success
      cases applied : operator.apply pair.1.1 pair.2.1 with
      | error fault =>
          rw [applied] at success
          contradiction
      | ok result =>
          rw [applied] at success
          obtain ⟨applicable, frequencies, members⟩ := induction success
          have value := Operator.value_of_apply applied
          refine ⟨?_, ?_, ?_⟩
          · rintro other member
            rcases List.mem_cons.mp member with rfl | later
            · exact ⟨result, applied⟩
            · exact applicable other later
          · intro outcome
            rw [frequencies outcome, frequency_add, List.map_cons,
              List.sum_cons, value, Nat.add_assoc]
          · intro outcome
            rw [members outcome, mem_outcomes_add]
            simp only [List.mem_cons, exists_eq_or_imp, value]
            tauto

/-- A join fails with the fault of the first pair that fails. -/
theorem exists_first_fault_of_foldlM_joinPair {operator : Operator}
    {pairs : List ((Int64 × Nat) × (Int64 × Nat))} {start : Distribution}
    {fault : EvalFault}
    (failure : pairs.foldlM (joinPair operator) start = .error fault) :
    ∃ earlier pair later, pairs = earlier ++ pair :: later ∧
      operator.apply pair.1.1 pair.2.1 = .error fault ∧
      ∀ before ∈ earlier, ∃ result,
        operator.apply before.1.1 before.2.1 = .ok result := by
  induction pairs generalizing start with
  | nil => contradiction
  | cons pair pairs induction =>
      rw [List.foldlM_cons, joinPair] at failure
      cases applied : operator.apply pair.1.1 pair.2.1 with
      | error cause =>
          rw [applied] at failure
          cases failure
          exact ⟨[], pair, pairs, rfl, applied, by simp⟩
      | ok result =>
          rw [applied] at failure
          obtain ⟨earlier, first, later, split, fails, passed⟩ := induction failure
          refine ⟨pair :: earlier, first, later, by rw [split]; rfl, fails, ?_⟩
          rw [List.forall_mem_cons]
          exact ⟨⟨result, applied⟩, passed⟩

section Joins

variable {operator : Operator} {lhs rhs : Distribution}

/-- The outcomes of a join are the results of the pairs of outcomes. -/
theorem mem_outcomes_convolve {joined : Distribution}
    (success : convolve none operator lhs rhs = .ok joined) {outcome : Int64} :
    outcome ∈ joined.outcomes ↔
      ∃ left ∈ lhs.outcomes, ∃ right ∈ rhs.outcomes,
        operator.value left right = outcome := by
  rw [convolve_none] at success
  obtain ⟨_, _, members⟩ := foldlM_joinPair_ok success
  rw [members, or_iff_right (not_mem_outcomes_empty outcome)]
  simp only [Prod.exists, mem_pairs_iff, outcomes, List.mem_map]
  constructor
  · rintro ⟨left, leftWays, right, rightWays, ⟨leftMember, rightMember⟩, value⟩
    exact ⟨left, ⟨left, leftWays, leftMember, rfl⟩, right,
      ⟨right, rightWays, rightMember, rfl⟩, value⟩
  · rintro ⟨_, ⟨left, leftWays, leftMember, rfl⟩, _, ⟨right, rightWays, rightMember, rfl⟩,
      value⟩
    exact ⟨left, leftWays, right, rightWays, ⟨leftMember, rightMember⟩, value⟩

/-- No pair is passed over by a join that does not fail. -/
theorem applicable_of_convolve {joined : Distribution}
    (success : convolve none operator lhs rhs = .ok joined) :
    ∀ left ∈ lhs.outcomes, ∀ right ∈ rhs.outcomes,
      ∃ result, operator.apply left right = .ok result := by
  rw [convolve_none] at success
  obtain ⟨applicable, _, _⟩ := foldlM_joinPair_ok success
  intro left leftMember right rightMember
  obtain ⟨leftEntry, leftListed, rfl⟩ := List.mem_map.mp leftMember
  obtain ⟨rightEntry, rightListed, rfl⟩ := List.mem_map.mp rightMember
  exact applicable _ (mem_pairs_iff.mpr ⟨leftListed, rightListed⟩)

/-- The fault of a join is the fault of one of its pairs. -/
theorem exists_fault_of_convolve {fault : EvalFault}
    (failure : convolve none operator lhs rhs = .error fault) :
    ∃ left ∈ lhs.outcomes, ∃ right ∈ rhs.outcomes,
      operator.apply left right = .error fault := by
  rw [convolve_none] at failure
  obtain ⟨earlier, ⟨left, right⟩, later, split, failed, _⟩ :=
    exists_first_fault_of_foldlM_joinPair failure
  have listed : (left, right) ∈ lhs.pairs rhs := by simp [split]
  obtain ⟨leftMember, rightMember⟩ := mem_pairs_iff.mp listed
  exact ⟨left.1, List.mem_map_of_mem leftMember, right.1, List.mem_map_of_mem rightMember,
    failed⟩

end Joins

section Joining

variable {operator : Operator} {lhs rhs : Distribution}
  {leftWeight rightWeight : Nat} {leftResults rightResults : List Int64}

/-- A join that does not fail counts the results of all pairs. -/
theorem Counts.convolve {joined : Distribution}
    (left : lhs.Counts leftWeight leftResults)
    (right : rhs.Counts rightWeight rightResults)
    (success : Distribution.convolve none operator lhs rhs = .ok joined) :
    joined.Counts (leftWeight * rightWeight)
      (leftResults.flatMap fun leftResult =>
        rightResults.map fun rightResult =>
          operator.value leftResult rightResult) := by
  constructor
  · intro outcome
    have row : ∀ leftEntry : Int64 × Nat,
        (rhs.entries.map fun rightEntry =>
          if operator.value leftEntry.1 rightEntry.1 = outcome then
            leftEntry.2 * rightEntry.2
          else 0).sum =
        leftEntry.2 * (rightWeight * (rightResults.map fun rightResult =>
          operator.value leftEntry.1 rightResult).count outcome) := by
      intro leftEntry
      rw [count_map_eq_sum, ← right.sum_entries, ← List.sum_map_mul_left]
      apply congrArg List.sum
      apply List.map_congr_left
      intro rightEntry _
      simp
    rw [convolve_none] at success
    obtain ⟨_, frequencies, _⟩ := foldlM_joinPair_ok success
    rw [frequencies, frequency_empty, Nat.zero_add, pairs, sum_map_flatMap]
    simp only [List.map_map, Function.comp_def, row]
    rw [left.sum_entries fun leftResult => rightWeight *
        (rightResults.map fun rightResult =>
          operator.value leftResult rightResult).count outcome,
      List.sum_map_mul_left, List.count_flatMap, Nat.mul_assoc]
    rfl
  · intro outcome
    rw [mem_outcomes_convolve success]
    simp only [left.outcomes, right.outcomes, List.mem_flatMap, List.mem_map]

theorem Counts.apply_ok {joined : Distribution}
    (left : lhs.Counts leftWeight leftResults)
    (right : rhs.Counts rightWeight rightResults)
    (success : Distribution.convolve none operator lhs rhs = .ok joined) :
    ∀ leftResult ∈ leftResults, ∀ rightResult ∈ rightResults,
      ∃ result, operator.apply leftResult rightResult = .ok result := by
  intro leftResult leftMember rightResult rightMember
  exact applicable_of_convolve success leftResult ((left.outcomes _).mpr leftMember)
    rightResult ((right.outcomes _).mpr rightMember)

theorem Counts.exists_fault {fault : EvalFault}
    (left : lhs.Counts leftWeight leftResults)
    (right : rhs.Counts rightWeight rightResults)
    (failure : Distribution.convolve none operator lhs rhs = .error fault) :
    ∃ leftResult ∈ leftResults, ∃ rightResult ∈ rightResults,
      operator.apply leftResult rightResult = .error fault := by
  obtain ⟨leftResult, leftMember, rightResult, rightMember, failed⟩ :=
    exists_fault_of_convolve failure
  exact ⟨leftResult, (left.outcomes _).mp leftMember, rightResult,
    (right.outcomes _).mp rightMember, failed⟩

end Joining

end Distribution

end DiceOdds
