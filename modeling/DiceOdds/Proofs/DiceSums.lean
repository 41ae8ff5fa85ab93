import DiceOdds.Proofs.PushForward
import DiceOdds.Proofs.ThrowCount
import Mathlib.Data.List.Perm.Basic

/-!
# Dice add up

The draw vectors of more equal dice are those of some of them in front of those of the
others, so joining the distributions of both by a sum gives that of all dice.  Turning
the others to their opposite faces goes through the same draw vectors, so a difference is
the same distribution, lowered by what two opposite faces count together.  Opposite faces
of Fudge dice cancel out, and nothing is lowered.
-/

namespace DiceOdds

/-- What the faces of some equal dice add up to. -/
def Faces.sumShown (faces : Faces) (draws : List UInt64) : Int :=
  (draws.map faces.shown).sum

/-- What two opposite faces of a die count together. -/
def Faces.oppositeSum : Faces → Int
  | .numbered sides => sides.toNat + 1
  | .fudge => 0

section Faces

variable {faces : Faces}

theorem Faces.sumShown_append (left right : List UInt64) :
    faces.sumShown (left ++ right) = faces.sumShown left + faces.sumShown right := by
  simp only [Faces.sumShown, List.map_append, List.sum_append]

theorem Faces.shown_opposite {face : UInt64} (suits : 1 ≤ face ∧ face ≤ faces.outcomes) :
    faces.shown (Face.opposite faces.outcomes face) =
      faces.oppositeSum - faces.shown face := by
  have together := Face.toNat_opposite suits
  cases faces with
  | numbered sides =>
      simp only [Faces.shown, Faces.oppositeSum, Faces.outcomes] at together ⊢
      omega
  | fudge =>
      simp only [Faces.shown, Faces.oppositeSum, Faces.outcomes, toNat_three] at together ⊢
      omega

variable {count : Nat} {draws : List UInt64}

theorem Faces.sumShown_bounds
    (member : draws ∈ drawVectors (List.replicate count faces.outcomes)) :
    -(count * faces.reach : Int) ≤ faces.sumShown draws ∧
      faces.sumShown draws ≤ count * faces.reach := by
  obtain ⟨rfl, suits⟩ := mem_drawVectors_replicate_iff.mp member
  clear member
  induction draws with
  | nil => simp [Faces.sumShown]
  | cons face draws induction =>
      rw [List.forall_mem_cons] at suits
      obtain ⟨lower, upper⟩ := Faces.shown_bounds suits.1
      have rest := induction suits.2
      rw [Faces.sumShown] at rest
      rw [Faces.sumShown, List.map_cons, List.sum_cons, List.length_cons, Int.natCast_succ,
        Int.add_mul, Int.one_mul]
      omega

theorem Faces.isWord_sumShown (room : count * faces.reach < 2 ^ 63)
    (member : draws ∈ drawVectors (List.replicate count faces.outcomes)) :
    isWord (faces.sumShown draws) := by
  have bounds := Faces.sumShown_bounds member
  norm_cast at bounds
  exact ⟨by omega, by omega⟩

/-- Turned dice show what is missing to the sum of two opposite faces each. -/
theorem Faces.sumShown_opposite
    (member : draws ∈ drawVectors (List.replicate count faces.outcomes)) :
    faces.sumShown (draws.map (Face.opposite faces.outcomes)) =
      count * faces.oppositeSum - faces.sumShown draws := by
  obtain ⟨rfl, suits⟩ := mem_drawVectors_replicate_iff.mp member
  clear member
  induction draws with
  | nil => simp [Faces.sumShown]
  | cons face draws induction =>
      rw [List.forall_mem_cons] at suits
      have rest := induction suits.2
      rw [Faces.sumShown, Faces.sumShown] at rest
      rw [Faces.sumShown, Faces.sumShown, List.map_cons, List.map_cons, List.map_cons,
        List.sum_cons, List.sum_cons, List.length_cons, Faces.shown_opposite suits.1, rest,
        Int.natCast_succ, Int.add_mul, Int.one_mul]
      omega

end Faces

section Values

variable {faces : Faces} {first second : Nat} {α : Type}

/-- Draw vectors of all dice list the sums of both parts. -/
theorem drawVectors_flatMap_add (value : Int → α) :
    ((drawVectors (List.replicate first faces.outcomes)).flatMap fun left =>
        (drawVectors (List.replicate second faces.outcomes)).map fun right =>
          value (faces.sumShown left + faces.sumShown right)) =
      (drawVectors (List.replicate (first + second) faces.outcomes)).map fun draws =>
        value (faces.sumShown draws) := by
  rw [List.replicate_add, drawVectors_append, List.map_flatMap]
  simp only [List.map_map, Function.comp_def, Faces.sumShown_append]

/-- Draw vectors of all dice list the differences of both parts, raised by the opposite
faces of the second part. -/
theorem drawVectors_flatMap_sub_perm (value : Int → α) :
    ((drawVectors (List.replicate first faces.outcomes)).flatMap fun left =>
        (drawVectors (List.replicate second faces.outcomes)).map fun right =>
          value (faces.sumShown left - faces.sumShown right)).Perm
      ((drawVectors (List.replicate (first + second) faces.outcomes)).map fun draws =>
        value (faces.sumShown draws - second * faces.oppositeSum)) := by
  have turned : ∀ left, ((drawVectors (List.replicate second faces.outcomes)).map
      fun right => value (faces.sumShown left - faces.sumShown right)) =
      ((drawVectors (List.replicate second faces.outcomes)).map
        (List.map (Face.opposite faces.outcomes))).map fun right =>
          value (faces.sumShown left + faces.sumShown right -
            second * faces.oppositeSum) := by
    intro left
    rw [List.map_map]
    apply List.map_congr_left
    intro right member
    rw [Function.comp_apply, Faces.sumShown_opposite member]
    congr 1
    omega
  simp only [turned]
  rw [← drawVectors_flatMap_add fun sum => value (sum - second * faces.oppositeSum)]
  apply List.Perm.flatMap_left
  intro left _
  exact (map_opposite_perm second faces.outcomes).map _

end Values

namespace Distribution

theorem Counts.of_perm {distribution : Distribution} {weight : Nat}
    {results others : List Int64} (counts : distribution.Counts weight results)
    (permuted : results.Perm others) : distribution.Counts weight others := by
  constructor
  · intro outcome
    rw [counts.frequency, permuted.count_eq]
  · intro outcome
    rw [counts.outcomes, permuted.mem_iff]

/-- A list of results is counted in only one way. -/
theorem Counts.unique {lhs rhs : Distribution} {weight : Nat} {results : List Int64}
    (left : lhs.Counts weight results) (right : rhs.Counts weight results) :
    lhs = rhs := by
  apply ext_frequency
  · intro outcome
    rw [left.outcomes, right.outcomes]
  · intro outcome
    rw [left.frequency, right.frequency]

/-- The entries in ascending order, with their outcomes as integers. -/
def integerEntries (distribution : Distribution) : List (Int × Nat) :=
  distribution.entries.map fun entry => (entry.1.toInt, entry.2)

theorem integerEntries_ascending (distribution : Distribution) :
    distribution.integerEntries.Pairwise fun left right => left.1 < right.1 := by
  apply List.Pairwise.map _ _ distribution.entries_ascending
  intro left right ascending
  exact Int64.lt_iff_toInt_lt.mp ascending

theorem ext_integerEntries {lhs rhs : Distribution}
    (same : lhs.integerEntries = rhs.integerEntries) : lhs = rhs := by
  have injective : Function.Injective fun entry : Int64 × Nat =>
      (entry.1.toInt, entry.2) := by
    rintro ⟨left, leftWays⟩ ⟨right, rightWays⟩ equality
    simpa only [Prod.mk.injEq, Int64.toInt_inj] using equality
  have entries : lhs.entries = rhs.entries := List.map_injective_iff.mpr injective same
  apply ext_frequency?
  intro outcome
  apply Option.ext
  intro ways
  rw [← mem_entries_iff, entries, mem_entries_iff]

/-- Ascending entries are known by their members. -/
theorem eq_of_ascending {left right : List (Int × Nat)}
    (leftAscending : left.Pairwise fun before after => before.1 < after.1)
    (rightAscending : right.Pairwise fun before after => before.1 < after.1)
    (members : ∀ entry, entry ∈ left ↔ entry ∈ right) : left = right := by
  have nodup : ∀ {entries : List (Int × Nat)},
      entries.Pairwise (fun before after => before.1 < after.1) → entries.Nodup := by
    intro entries ascending
    apply ascending.imp
    rintro before _ less rfl
    exact Int.lt_irrefl _ less
  have permuted : left.Perm right :=
    (List.perm_ext_iff_of_nodup (nodup leftAscending) (nodup rightAscending)).mpr members
  apply permuted.eq_of_pairwise _ leftAscending rightAscending
  intro before after _ _ less greater
  omega

section Integers

variable {distribution : Distribution} {weight : Nat} {values : List Int}

theorem Counts.mem_integerEntries_iff
    (counts : distribution.Counts weight (values.map Int64.ofInt))
    (words : ∀ value ∈ values, isWord value) {value : Int} {ways : Nat} :
    (value, ways) ∈ distribution.integerEntries ↔
      value ∈ values ∧ ways = weight * values.count value := by
  simp only [integerEntries, List.mem_map, Prod.exists, Prod.mk.injEq,
    counts.mem_entries_iff, count_map_ofInt words]
  constructor
  · rintro ⟨_, _, ⟨⟨held, member, rfl⟩, counted⟩, rfl, rfl⟩
    rw [toInt_ofInt_of_isWord (words held member)] at counted ⊢
    exact ⟨member, counted⟩
  · rintro ⟨member, rfl⟩
    have read := toInt_ofInt_of_isWord (words value member)
    exact ⟨_, _, ⟨⟨value, member, rfl⟩, rfl⟩, read, by rw [read]⟩

/-- A lowered integer is listed as often as the integer itself. -/
theorem Counts.mem_integerEntries_lowered_iff {lowered : Distribution} {offset : Int}
    (counts : lowered.Counts weight
      ((values.map fun value => value - offset).map Int64.ofInt))
    (words : ∀ value ∈ values, isWord (value - offset)) {value : Int} {ways : Nat} :
    (value - offset, ways) ∈ lowered.integerEntries ↔
      value ∈ values ∧ ways = weight * values.count value := by
  have injective : Function.Injective fun value : Int => value - offset := by
    intro left right same
    simp only at same
    omega
  have loweredWords : ∀ value ∈ values.map fun value => value - offset, isWord value := by
    intro value member
    obtain ⟨before, beforeMember, rfl⟩ := List.mem_map.mp member
    exact words before beforeMember
  rw [counts.mem_integerEntries_iff loweredWords, List.mem_map_of_injective injective,
    List.count_map_of_injective _ _ injective]

/-- Lowered results are counted in lowered entries. -/
theorem Counts.integerEntries_lowered {lowered : Distribution} {offset : Int}
    (counts : distribution.Counts weight (values.map Int64.ofInt))
    (loweredCounts : lowered.Counts weight
      ((values.map fun value => value - offset).map Int64.ofInt))
    (words : ∀ value ∈ values, isWord value)
    (loweredWords : ∀ value ∈ values, isWord (value - offset)) :
    lowered.integerEntries =
      distribution.integerEntries.map fun entry => (entry.1 - offset, entry.2) := by
  have ascending : (distribution.integerEntries.map fun entry =>
      (entry.1 - offset, entry.2)).Pairwise fun left right => left.1 < right.1 := by
    apply List.Pairwise.map _ _ distribution.integerEntries_ascending
    intro left right before
    exact Int.sub_lt_sub_right before offset
  apply eq_of_ascending lowered.integerEntries_ascending ascending
  rintro ⟨value, ways⟩
  obtain ⟨before, rfl⟩ : ∃ before, value = before - offset := ⟨value + offset, by omega⟩
  rw [loweredCounts.mem_integerEntries_lowered_iff loweredWords,
    ← counts.mem_integerEntries_iff words, List.mem_map]
  constructor
  · intro member
    exact ⟨_, member, rfl⟩
  · rintro ⟨⟨other, otherWays⟩, member, equality⟩
    obtain ⟨value, rfl⟩ := Prod.mk.inj equality
    have same : other = before := sub_left_injective value
    rwa [same] at member

end Integers

end Distribution

/-- Sums and differences of words are exact as long as they are words. -/
theorem Operator.apply_ofInt {operator : Operator} (defined : operator ≠ .div)
    {lhs rhs : Int} (left : isWord lhs) (right : isWord rhs)
    (word : isWord (operator.exact lhs rhs)) :
    operator.apply (Int64.ofInt lhs) (Int64.ofInt rhs) =
      .ok (Int64.ofInt (operator.exact lhs rhs)) := by
  have noQuotient : ¬ (operator = .div ∧ Int64.ofInt rhs = 0) := fun divides =>
    defined divides.1
  rw [Operator.apply, if_neg noQuotient, toInt_ofInt_of_isWord left,
    toInt_ofInt_of_isWord right, toWord_of_isWord word]

theorem Dice.results_sum_add {faces : Faces} {first second : UInt64}
    (together : (first + second).toNat = first.toNat + second.toNat) :
    (Dice.sum (first + second) faces).results =
      (drawVectors (List.replicate (first.toNat + second.toNat) faces.outcomes)).map
        fun draws => Int64.ofInt (faces.sumShown draws) := by
  rw [← together]
  rfl

namespace Distribution

section Joining

variable {faces : Faces} {first second : UInt64} {operator : Operator}
  {lhs rhs : Distribution} {leftWeight rightWeight : Nat}

/-- What two groups of dice show has a sum and a difference among the words when the sum
of all dice is sure to be a word. -/
theorem isWord_exact_sumShown (room : (first.toNat + second.toNat) * faces.reach < 2 ^ 63)
    (linear : operator = .add ∨ operator = .sub) {left right : List UInt64}
    (leftMember : left ∈ drawVectors (List.replicate first.toNat faces.outcomes))
    (rightMember : right ∈ drawVectors (List.replicate second.toNat faces.outcomes)) :
    isWord (operator.exact (faces.sumShown left) (faces.sumShown right)) := by
  have leftBounds := Faces.sumShown_bounds leftMember
  have rightBounds := Faces.sumShown_bounds rightMember
  rw [Nat.add_mul] at room
  norm_cast at leftBounds rightBounds
  rcases linear with rfl | rfl
  · simp only [Operator.exact]
    exact ⟨by omega, by omega⟩
  · simp only [Operator.exact]
    exact ⟨by omega, by omega⟩

/-- The lowered sums are the differences in another order, so they are words as well. -/
theorem isWord_lowered (room : (first.toNat + second.toNat) * faces.reach < 2 ^ 63)
    {draws : List UInt64}
    (member : draws ∈
      drawVectors (List.replicate (first.toNat + second.toNat) faces.outcomes)) :
    isWord (faces.sumShown draws - second.toNat * faces.oppositeSum) := by
  have listed := List.mem_map_of_mem (f := fun draws =>
    id (faces.sumShown draws - second.toNat * faces.oppositeSum)) member
  rw [← (drawVectors_flatMap_sub_perm id).mem_iff] at listed
  obtain ⟨left, leftDrawn, differences⟩ := List.mem_flatMap.mp listed
  obtain ⟨right, rightDrawn, difference⟩ := List.mem_map.mp differences
  rw [id, id] at difference
  rw [← difference]
  exact isWord_exact_sumShown room (.inr rfl) leftDrawn rightDrawn

theorem apply_sumShown (room : (first.toNat + second.toNat) * faces.reach < 2 ^ 63)
    (linear : operator = .add ∨ operator = .sub) {left right : List UInt64}
    (leftMember : left ∈ drawVectors (List.replicate first.toNat faces.outcomes))
    (rightMember : right ∈ drawVectors (List.replicate second.toNat faces.outcomes)) :
    operator.apply (Int64.ofInt (faces.sumShown left)) (Int64.ofInt (faces.sumShown right)) =
      .ok (Int64.ofInt (operator.exact (faces.sumShown left) (faces.sumShown right))) := by
  have parts := room
  rw [Nat.add_mul] at parts
  have defined : operator ≠ .div := by
    rcases linear with rfl | rfl
    · decide
    · decide
  apply Operator.apply_ofInt defined
  · exact Faces.isWord_sumShown (by omega) leftMember
  · exact Faces.isWord_sumShown (by omega) rightMember
  · exact isWord_exact_sumShown room linear leftMember rightMember

/-- Joining two groups of equal dice by a sum or a difference counts the exact results
on the draw vectors of both. -/
theorem Counts.exists_convolve_sums
    (room : (first.toNat + second.toNat) * faces.reach < 2 ^ 63)
    (linear : operator = .add ∨ operator = .sub)
    (left : lhs.Counts leftWeight (Dice.sum first faces).results)
    (right : rhs.Counts rightWeight (Dice.sum second faces).results) :
    ∃ joined, Distribution.convolve none operator lhs rhs = .ok joined ∧
      joined.Counts (leftWeight * rightWeight)
        ((drawVectors (List.replicate first.toNat faces.outcomes)).flatMap fun left =>
          (drawVectors (List.replicate second.toNat faces.outcomes)).map fun right =>
            Int64.ofInt (operator.exact (faces.sumShown left) (faces.sumShown right))) := by
  have applicable : ∀ leftResult ∈ lhs.outcomes, ∀ rightResult ∈ rhs.outcomes,
      ∃ result, operator.apply leftResult rightResult = .ok result := by
    intro leftResult leftMember rightResult rightMember
    rw [left.outcomes] at leftMember
    rw [right.outcomes] at rightMember
    obtain ⟨leftDraws, leftDrawn, rfl⟩ := List.mem_map.mp leftMember
    obtain ⟨rightDraws, rightDrawn, rfl⟩ := List.mem_map.mp rightMember
    exact ⟨_, apply_sumShown room linear leftDrawn rightDrawn⟩
  obtain ⟨joined, success⟩ := exists_convolve applicable
  refine ⟨joined, success, (left.convolve right success).of_perm (List.Perm.of_eq ?_)⟩
  rw [Dice.results, Dice.results, List.flatMap_map]
  apply List.flatMap_congr
  intro leftDraws leftDrawn
  rw [List.map_map]
  apply List.map_congr_left
  intro rightDraws rightDrawn
  exact Operator.value_of_apply (apply_sumShown room linear leftDrawn rightDrawn)

variable {sum : Distribution}

/-- The sum of two groups of equal dice is the sum of all dice. -/
theorem Counts.convolve_add_sums
    (room : (first.toNat + second.toNat) * faces.reach < 2 ^ 63)
    (together : (first + second).toNat = first.toNat + second.toNat)
    (left : lhs.Counts leftWeight (Dice.sum first faces).results)
    (right : rhs.Counts rightWeight (Dice.sum second faces).results)
    (all : sum.Counts (leftWeight * rightWeight) (Dice.sum (first + second) faces).results) :
    Distribution.convolve none .add lhs rhs = .ok sum := by
  obtain ⟨joined, success, counts⟩ := left.exists_convolve_sums room (.inl rfl) right
  rw [Dice.results_sum_add together, ← drawVectors_flatMap_add] at all
  rw [success, counts.unique all]

/-- The difference of two groups of equal dice is the sum of all dice, lowered by the
opposite faces of the second group. -/
theorem Counts.convolve_sub_sums
    (room : (first.toNat + second.toNat) * faces.reach < 2 ^ 63)
    (together : (first + second).toNat = first.toNat + second.toNat)
    (left : lhs.Counts leftWeight (Dice.sum first faces).results)
    (right : rhs.Counts rightWeight (Dice.sum second faces).results)
    (all : sum.Counts (leftWeight * rightWeight) (Dice.sum (first + second) faces).results) :
    ∃ difference, Distribution.convolve none .sub lhs rhs = .ok difference ∧
      difference.integerEntries = sum.integerEntries.map fun entry =>
        (entry.1 - second.toNat * faces.oppositeSum, entry.2) := by
  obtain ⟨difference, success, counts⟩ := left.exists_convolve_sums room (.inr rfl) right
  refine ⟨difference, success, ?_⟩
  let values : List Int :=
    (drawVectors (List.replicate (first.toNat + second.toNat) faces.outcomes)).map
      faces.sumShown
  have allListed : sum.Counts (leftWeight * rightWeight) (values.map Int64.ofInt) := by
    rw [Dice.results_sum_add together] at all
    simpa only [values, List.map_map, Function.comp_def] using all
  have lowered : difference.Counts (leftWeight * rightWeight)
      ((values.map fun value => value - second.toNat * faces.oppositeSum).map
        Int64.ofInt) := by
    have permuted := counts.of_perm (drawVectors_flatMap_sub_perm Int64.ofInt)
    simpa only [values, List.map_map, Function.comp_def] using permuted
  apply allListed.integerEntries_lowered lowered
  · intro value member
    obtain ⟨draws, drawn, rfl⟩ := List.mem_map.mp member
    exact Faces.isWord_sumShown room drawn
  · intro value member
    obtain ⟨draws, drawn, rfl⟩ := List.mem_map.mp member
    exact isWord_lowered room drawn

end Joining

/-- Two groups of equal dice add up to all of them; and a difference of the groups is the
sum of all, with every outcome lowered by what the second group counts on two opposite
sides.  Of Fudge dice both the sum and the difference are the sum of all. -/
theorem equal_dice_add_up {first second : UInt64} (firstPositive : 0 < first)
    (secondPositive : 0 < second) :
    (∀ sides : UInt64, 0 < sides →
      (first.toNat + second.toNat) * sides.toNat < 2 ^ 63 →
      ∃ lhs rhs sum difference,
        sumOfDice first sides = .ok lhs ∧ sumOfDice second sides = .ok rhs ∧
        sumOfDice (first + second) sides = .ok sum ∧
        convolve none .add lhs rhs = .ok sum ∧
        convolve none .sub lhs rhs = .ok difference ∧
        difference.integerEntries = sum.integerEntries.map fun entry =>
          (entry.1 - (second.toNat * (sides.toNat + 1) : Int), entry.2)) ∧
    (first.toNat + second.toNat < 2 ^ 32 →
      ∃ lhs rhs sum,
        sumOfFudge first = .ok lhs ∧ sumOfFudge second = .ok rhs ∧
        sumOfFudge (first + second) = .ok sum ∧
        convolve none .add lhs rhs = .ok sum ∧
        convolve none .sub lhs rhs = .ok sum) := by
  rw [UInt64.lt_iff_toNat_lt] at firstPositive secondPositive
  constructor
  · intro sides sidesPositive room
    rw [UInt64.lt_iff_toNat_lt] at sidesPositive
    have parts := room
    rw [Nat.add_mul] at parts
    have dice : first.toNat + second.toNat ≤ (first.toNat + second.toNat) * sides.toNat :=
      Nat.le_mul_of_pos_right _ sidesPositive
    have together : (first + second).toNat = first.toNat + second.toNat := by
      rw [UInt64.toNat_add]
      omega
    obtain ⟨lhs, leftFound, left⟩ :=
      sumOfDice_counts firstPositive sidesPositive (by omega)
    obtain ⟨rhs, rightFound, right⟩ :=
      sumOfDice_counts secondPositive sidesPositive (by omega)
    obtain ⟨sum, found, all⟩ :=
      @sumOfDice_counts (first + second) sides (by omega) sidesPositive (by rwa [together])
    have summed := left.convolve_add_sums room together right all
    obtain ⟨difference, subtracted, lowered⟩ :=
      left.convolve_sub_sums room together right all
    exact ⟨lhs, rhs, sum, difference, leftFound, rightFound, found, summed, subtracted,
      lowered⟩
  · intro room
    have together : (first + second).toNat = first.toNat + second.toNat := by
      rw [UInt64.toNat_add]
      omega
    have narrow : (first.toNat + second.toNat) * Faces.fudge.reach < 2 ^ 63 := by
      rw [Faces.reach]
      omega
    obtain ⟨lhs, leftFound, left⟩ := sumOfFudge_counts firstPositive (by omega)
    obtain ⟨rhs, rightFound, right⟩ := sumOfFudge_counts secondPositive (by omega)
    obtain ⟨sum, found, all⟩ :=
      @sumOfFudge_counts (first + second) (by omega) (by rwa [together])
    rw [together, Nat.pow_add] at all
    have summed := left.convolve_add_sums narrow together right all
    obtain ⟨difference, subtracted, lowered⟩ :=
      left.convolve_sub_sums narrow together right all
    have unmoved : difference.integerEntries = sum.integerEntries := by
      simpa [Faces.oppositeSum] using lowered
    rw [ext_integerEntries unmoved] at subtracted
    exact ⟨lhs, rhs, sum, leftFound, rightFound, found, summed, subtracted⟩

/-- Two dice with six sides and three more of them, and one Fudge die and two more. -/
theorem five_dice_add_up :
    (∃ lhs rhs sum difference,
      sumOfDice 2 6 = .ok lhs ∧ sumOfDice 3 6 = .ok rhs ∧ sumOfDice 5 6 = .ok sum ∧
      convolve none .add lhs rhs = .ok sum ∧
      convolve none .sub lhs rhs = .ok difference ∧
      difference.integerEntries = sum.integerEntries.map fun entry =>
        (entry.1 - 21, entry.2)) ∧
    ∃ lhs rhs sum,
      sumOfFudge 1 = .ok lhs ∧ sumOfFudge 2 = .ok rhs ∧ sumOfFudge 3 = .ok sum ∧
      convolve none .add lhs rhs = .ok sum ∧ convolve none .sub lhs rhs = .ok sum := by
  obtain ⟨numbered, _⟩ := @equal_dice_add_up 2 3 (by decide) (by decide)
  obtain ⟨_, fudge⟩ := @equal_dice_add_up 1 2 (by decide) (by decide)
  exact ⟨numbered 6 (by decide) (by decide), fudge (by decide)⟩

end Distribution

end DiceOdds
