import DiceOdds.Proofs.DrawVectors
import Mathlib.RingTheory.PowerSeries.WellKnown

/-!
# Counting sums of equal dice

The draw vectors of a plan have a generating function, the product of one
polynomial for each die.  For equal dice it is a power that the binomial
theorem expands, which gives the number of draw vectors with a given sum as an
alternating sum of products of two binomials.  Turning every die to its opposite
face shows that the numbers are symmetric.
-/

namespace DiceOdds

open PowerSeries

/-- The sum of the numbers on the faces drawn. -/
def faceSum (draws : List UInt64) : Nat :=
  (draws.map UInt64.toNat).sum

/-- In how many ways so many dice with so many sides have a given sum. -/
def sumWays (count : Nat) (sides : UInt64) (total : Nat) : Nat :=
  ((drawVectors (List.replicate count sides)).map faceSum).count total

private theorem coeff_sum_pow (sums : List Nat) (total : Nat) :
    coeff total ((sums.map fun sum => (X : ℤ⟦X⟧) ^ sum).sum) =
      sums.count total := by
  induction sums with
  | nil => simp
  | cons sum sums induction =>
      simp only [List.map_cons, List.sum_cons, map_add, induction, coeff_X_pow,
        List.count_cons, beq_iff_eq, Nat.cast_add, Nat.cast_ite, Nat.cast_one,
        Nat.cast_zero, eq_comm (a := total)]
      ring

/-- The generating function of the sums of a plan is a product over its dice. -/
theorem sum_pow_drawVectors (plan : List UInt64) :
    (((drawVectors plan).map faceSum).map fun sum => (X : ℤ⟦X⟧) ^ sum).sum =
      (plan.map fun sides =>
        ((List.range' 1 sides.toNat).map fun face => (X : ℤ⟦X⟧) ^ face).sum).prod := by
  induction plan with
  | nil => simp [drawVectors, faceSum]
  | cons sides plan induction =>
      have row : ∀ face : UInt64,
          (((drawVectors plan).map fun draws => face :: draws).map fun draws =>
            (X : ℤ⟦X⟧) ^ faceSum draws).sum =
          X ^ face.toNat * (((drawVectors plan).map faceSum).map fun sum =>
            (X : ℤ⟦X⟧) ^ sum).sum := by
        intro face
        rw [← List.sum_map_mul_left]
        simp only [List.map_map]
        apply congrArg List.sum
        apply List.map_congr_left
        intro draws _
        simp [faceSum, pow_add]
      rw [List.map_map, drawVectors, sum_map_flatMap, List.map_cons,
        List.prod_cons, ← induction, ← Face.toNat_all, List.map_map,
        ← List.sum_map_mul_right]
      apply congrArg List.sum
      apply List.map_congr_left
      intro face _
      exact row face

private theorem sum_faces_mul_one_sub (sides : Nat) :
    ((List.range' 1 sides).map fun face => (X : ℤ⟦X⟧) ^ face).sum * (1 - X) =
      X * (1 - X ^ sides) := by
  induction sides with
  | zero => simp
  | succ sides induction =>
      rw [List.range'_concat, List.map_append, List.sum_append, add_mul, induction]
      simp
      ring

/-- The generating function of equal dice as a binomial times a power of the
geometric series. -/
private theorem sum_faces_pow {count : Nat} (positive : 0 < count) (sides : Nat) :
    ((List.range' 1 sides).map fun face => (X : ℤ⟦X⟧) ^ face).sum ^ count =
      X ^ count * (1 - X ^ sides) ^ count *
        mk fun power => ((count - 1 + power).choose (count - 1) : ℤ) := by
  obtain ⟨others, rfl⟩ := Nat.exists_eq_add_of_lt positive
  have inverse := mk_add_choose_mul_one_sub_pow_eq_one ℤ others
  rw [Nat.zero_add, Nat.add_sub_cancel, ← mul_pow, ← sum_faces_mul_one_sub,
    mul_pow, mul_assoc, mul_comm ((1 - X) ^ _), inverse, mul_one]

/-- Terms of dice pushed past their last face alternate in sign. -/
theorem one_sub_pow_eq_sum (sides count : Nat) :
    (1 - (X : ℤ⟦X⟧) ^ sides) ^ count =
      ∑ i ∈ Finset.range (count + 1),
        C ((-1) ^ i * (count.choose i : ℤ)) * X ^ (sides * i) := by
  rw [sub_eq_neg_add, add_pow]
  apply Finset.sum_congr rfl
  intro i _
  rw [neg_pow, ← pow_mul, one_pow, mul_one]
  simp
  ring

private theorem coeff_term {count total : Nat} (positive : 0 < count)
    (shift : Nat) (factor : ℤ) :
    coeff total (C factor * (X ^ (count + shift) *
        mk fun power => ((count - 1 + power).choose (count - 1) : ℤ))) =
      if count + shift ≤ total then
        factor * ((total - shift - 1).choose (count - 1) : ℤ)
      else 0 := by
  rw [coeff_C_mul, coeff_X_pow_mul']
  split
  · rw [coeff_mk]
    congr 3
    omega
  · rw [mul_zero]

/-- The number of ways is the alternating sum over the numbers of dice that are
pushed past their last face. -/
theorem sumWays_eq_sum {count total : Nat} {sides : UInt64}
    (countPositive : 0 < count) (sidesPositive : 0 < sides.toNat)
    (least : count ≤ total) :
    (sumWays count sides total : ℤ) =
      ∑ i ∈ Finset.range ((total - count) / sides.toNat + 1),
        (-1) ^ i * ((count.choose i : ℤ) *
          ((total - sides.toNat * i - 1).choose (count - 1) : ℤ)) := by
  let term : Nat → ℤ := fun i =>
    if count + sides.toNat * i ≤ total then
      (-1) ^ i * (count.choose i : ℤ) *
        ((total - sides.toNat * i - 1).choose (count - 1) : ℤ)
    else 0
  have alive : ∀ i, count + sides.toNat * i ≤ total ↔
      i < (total - count) / sides.toNat + 1 := by
    intro i
    rw [Nat.lt_succ_iff, Nat.le_div_iff_mul_le sidesPositive, Nat.mul_comm i]
    omega
  have dead : ∀ bound, (∀ i, bound ≤ i → term i = 0) → ∀ larger, bound ≤ larger →
      ∑ i ∈ Finset.range bound, term i = ∑ i ∈ Finset.range larger, term i := by
    intro bound zero larger smaller
    apply Finset.sum_subset (Finset.range_mono smaller)
    intro i _ outside
    exact zero i (by simpa using outside)
  -- Past the last die the first binomial is zero, past the rest the term is not
  -- alive; so both ranges give the sum over a range that holds them.
  have sameSum : ∑ i ∈ Finset.range (count + 1), term i =
      ∑ i ∈ Finset.range ((total - count) / sides.toNat + 1), term i := by
    rw [dead (count + 1) _ (count + 1 + ((total - count) / sides.toNat + 1))
        (Nat.le_add_right _ _),
      dead ((total - count) / sides.toNat + 1) _
        (count + 1 + ((total - count) / sides.toNat + 1)) (Nat.le_add_left _ _)]
    · intro i beyond
      simp only [term, alive, Nat.not_lt.mpr beyond, if_false]
    · intro i beyond
      simp only [term, Nat.choose_eq_zero_of_lt beyond, Nat.cast_zero, mul_zero,
        zero_mul, ite_self]
  calc
    (sumWays count sides total : ℤ)
        = ∑ i ∈ Finset.range (count + 1), term i := by
          rw [sumWays, ← coeff_sum_pow, sum_pow_drawVectors, List.map_replicate,
            List.prod_replicate, sum_faces_pow countPositive, one_sub_pow_eq_sum,
            Finset.mul_sum, Finset.sum_mul, map_sum]
          apply Finset.sum_congr rfl
          intro i _
          refine Eq.trans (congrArg (coeff total) ?_)
            (coeff_term countPositive (sides.toNat * i) _)
          ring
    _ = ∑ i ∈ Finset.range ((total - count) / sides.toNat + 1), term i := sameSum
    _ = _ := by
          apply Finset.sum_congr rfl
          intro i member
          rw [← mul_assoc]
          exact if_pos ((alive i).mpr (Finset.mem_range.mp member))

theorem faceSum_bounds {count : Nat} {sides : UInt64} {draws : List UInt64}
    (member : draws ∈ drawVectors (List.replicate count sides)) :
    count ≤ faceSum draws ∧ faceSum draws ≤ count * sides.toNat := by
  induction count generalizing draws with
  | zero =>
      rw [List.replicate_zero, drawVectors, List.mem_singleton] at member
      simp [member, faceSum]
  | succ count induction =>
      simp only [List.replicate_succ, drawVectors, List.mem_flatMap, List.mem_map,
        Face.mem_all_iff, Face.suits_iff] at member
      obtain ⟨face, ⟨lower, upper⟩, rest, restMember, rfl⟩ := member
      obtain ⟨restLower, restUpper⟩ := induction restMember
      simp only [faceSum, List.map_cons, List.sum_cons] at restLower restUpper ⊢
      rw [Nat.add_mul]
      omega

/-- Every number between the least and the greatest sum is a sum. -/
theorem exists_faceSum_eq {count total : Nat} {sides : UInt64}
    (lower : count ≤ total) (upper : total ≤ count * sides.toNat) :
    ∃ draws ∈ drawVectors (List.replicate count sides), faceSum draws = total := by
  induction count generalizing total with
  | zero => exact ⟨[], by simp [drawVectors], by simp [faceSum]; omega⟩
  | succ count induction =>
      rw [Nat.add_mul, Nat.one_mul] at upper
      have bound := sides.toNat_lt
      -- The first die shows as little as the others leave it.
      let face := max 1 (total - count * sides.toNat)
      have sidesPositive : 0 < sides.toNat := by
        rcases Nat.eq_zero_or_pos sides.toNat with zero | positive
        · rw [zero] at upper
          omega
        · exact positive
      have room : count ≤ count * sides.toNat :=
        Nat.le_mul_of_pos_right count sidesPositive
      have faceUpper : face ≤ sides.toNat := by omega
      obtain ⟨rest, restMember, restSum⟩ :=
        @induction (total - face) (by omega) (by omega)
      have faceValue : (UInt64.ofNat face).toNat = face :=
        UInt64.toNat_ofNat_of_lt' (Nat.lt_of_le_of_lt faceUpper bound)
      refine ⟨UInt64.ofNat face :: rest, ?_, ?_⟩
      · rw [List.replicate_succ, drawVectors]
        apply List.mem_flatMap.mpr
        refine ⟨UInt64.ofNat face, ?_, List.mem_map.mpr ⟨rest, restMember, rfl⟩⟩
        rw [Face.mem_all_iff, Face.suits_iff, faceValue]
        exact ⟨Nat.le_max_left _ _, faceUpper⟩
      · simp only [faceSum, List.map_cons, List.sum_cons, faceValue] at restSum ⊢
        omega

theorem sumWays_pos_iff {count total : Nat} {sides : UInt64} :
    0 < sumWays count sides total ↔
      count ≤ total ∧ total ≤ count * sides.toNat := by
  rw [sumWays, List.count_pos_iff, List.mem_map]
  constructor
  · rintro ⟨draws, member, rfl⟩
    exact faceSum_bounds member
  · rintro ⟨lower, upper⟩
    exact exists_faceSum_eq lower upper

theorem mem_drawVectors_replicate_iff {count : Nat} {sides : UInt64}
    {draws : List UInt64} :
    draws ∈ drawVectors (List.replicate count sides) ↔
      draws.length = count ∧ ∀ face ∈ draws, 1 ≤ face ∧ face ≤ sides := by
  rw [mem_drawVectors_iff]
  induction draws generalizing count with
  | nil => cases count <;> simp [List.replicate_succ]
  | cons face draws induction =>
      cases count with
      | zero => simp
      | succ count =>
          rw [List.replicate_succ, List.forall₂_cons, induction]
          simp only [List.length_cons, Nat.add_right_cancel_iff, List.forall_mem_cons]
          tauto

/-- The face on the other side of a die: the first one for the last one. -/
def Face.opposite (sides face : UInt64) : UInt64 :=
  sides - face + 1

theorem Face.toNat_opposite {sides face : UInt64}
    (suits : 1 ≤ face ∧ face ≤ sides) :
    (Face.opposite sides face).toNat + face.toNat = sides.toNat + 1 := by
  have bound := sides.toNat_lt
  have one : (1 : UInt64).toNat = 1 := rfl
  obtain ⟨lower, upper⟩ := Face.suits_iff.mp suits
  rw [Face.opposite, UInt64.toNat_add, UInt64.toNat_sub_of_le _ _ suits.2, one,
    Nat.mod_eq_of_lt (by omega)]
  omega

theorem Face.opposite_suits {sides face : UInt64}
    (suits : 1 ≤ face ∧ face ≤ sides) :
    1 ≤ Face.opposite sides face ∧ Face.opposite sides face ≤ sides := by
  have sum := Face.toNat_opposite suits
  rw [Face.suits_iff] at suits ⊢
  omega

theorem Face.opposite_opposite {sides face : UInt64}
    (suits : 1 ≤ face ∧ face ≤ sides) :
    Face.opposite sides (Face.opposite sides face) = face := by
  have sum := Face.toNat_opposite suits
  have sumAgain := Face.toNat_opposite (Face.opposite_suits suits)
  apply UInt64.toNat_inj.mp
  omega

/-- A value occurs as often among the draw vectors as there are draw vectors with it. -/
theorem count_map_drawVectors {α : Type} [DecidableEq α] (plan : List UInt64)
    (value : List UInt64 → α) (query : α) :
    ((drawVectors plan).map value).count query =
      ((drawVectors plan).toFinset.filter fun draws => value draws = query).card := by
  have nodup := nodup_drawVectors plan
  rw [List.count_eq_countP, List.countP_map, List.countP_eq_length_filter,
    ← List.toFinset_card_of_nodup (nodup.filter _), List.toFinset_filter]
  simp

theorem sumWays_eq_card (count : Nat) (sides : UInt64) (total : Nat) :
    sumWays count sides total =
      ((drawVectors (List.replicate count sides)).toFinset.filter
        fun draws => faceSum draws = total).card :=
  count_map_drawVectors _ faceSum total

private theorem faceSum_map_opposite {count : Nat} {sides : UInt64}
    {draws : List UInt64}
    (member : draws ∈ drawVectors (List.replicate count sides)) :
    faceSum (draws.map (Face.opposite sides)) + faceSum draws =
      count * sides.toNat + count := by
  obtain ⟨length, suits⟩ := mem_drawVectors_replicate_iff.mp member
  subst count
  clear member
  induction draws with
  | nil => simp [faceSum]
  | cons face draws induction =>
      rw [List.forall_mem_cons] at suits
      have head := Face.toNat_opposite suits.1
      have tail := induction suits.2
      simp only [faceSum, List.map_cons, List.sum_cons, List.length_cons,
        Nat.add_mul] at tail ⊢
      omega

theorem map_opposite_mem_drawVectors {count : Nat} {sides : UInt64}
    {draws : List UInt64}
    (member : draws ∈ drawVectors (List.replicate count sides)) :
    draws.map (Face.opposite sides) ∈ drawVectors (List.replicate count sides) := by
  obtain ⟨length, suits⟩ := mem_drawVectors_replicate_iff.mp member
  rw [mem_drawVectors_replicate_iff]
  refine ⟨by simpa using length, ?_⟩
  intro face turned
  obtain ⟨before, beforeMember, rfl⟩ := List.mem_map.mp turned
  exact Face.opposite_suits (suits before beforeMember)

/-- Turning all dice twice shows the faces that were drawn. -/
theorem map_opposite_map_opposite {count : Nat} {sides : UInt64}
    {draws : List UInt64}
    (member : draws ∈ drawVectors (List.replicate count sides)) :
    (draws.map (Face.opposite sides)).map (Face.opposite sides) = draws := by
  obtain ⟨_, suits⟩ := mem_drawVectors_replicate_iff.mp member
  rw [List.map_map]
  conv_rhs => rw [← List.map_id draws]
  apply List.map_congr_left
  intro face faceMember
  exact Face.opposite_opposite (suits face faceMember)

/-- As many ways lead to a sum as to the sum opposite to it. -/
theorem sumWays_opposite {count total : Nat} {sides : UInt64}
    (lower : count ≤ total) (upper : total ≤ count * sides.toNat) :
    sumWays count sides (count * sides.toNat - (total - count)) =
      sumWays count sides total := by
  let turn : List UInt64 → List UInt64 := List.map (Face.opposite sides)
  rw [sumWays_eq_card, sumWays_eq_card]
  apply Finset.card_nbij' turn turn
  · intro draws member
    simp only [Finset.mem_coe, Finset.mem_filter, List.mem_toFinset] at member ⊢
    have sum := faceSum_map_opposite member.1
    exact ⟨map_opposite_mem_drawVectors member.1, by simp only [turn]; omega⟩
  · intro draws member
    simp only [Finset.mem_coe, Finset.mem_filter, List.mem_toFinset] at member ⊢
    have sum := faceSum_map_opposite member.1
    exact ⟨map_opposite_mem_drawVectors member.1, by simp only [turn]; omega⟩
  · intro draws member
    simp only [Finset.mem_coe, Finset.mem_filter, List.mem_toFinset] at member
    exact map_opposite_map_opposite member.1
  · intro draws member
    simp only [Finset.mem_coe, Finset.mem_filter, List.mem_toFinset] at member
    exact map_opposite_map_opposite member.1

/-- Turning all dice goes through the draw vectors in another order. -/
theorem map_opposite_perm (count : Nat) (sides : UInt64) :
    ((drawVectors (List.replicate count sides)).map
        (List.map (Face.opposite sides))).Perm
      (drawVectors (List.replicate count sides)) := by
  have nodup := nodup_drawVectors (List.replicate count sides)
  have turned : ((drawVectors (List.replicate count sides)).map
      (List.map (Face.opposite sides))).Nodup := by
    apply List.Nodup.map_on _ nodup
    intro left leftMember right rightMember same
    rw [← map_opposite_map_opposite leftMember, same,
      map_opposite_map_opposite rightMember]
  rw [List.perm_ext_iff_of_nodup turned nodup]
  intro draws
  rw [List.mem_map]
  constructor
  · rintro ⟨before, member, rfl⟩
    exact map_opposite_mem_drawVectors member
  · intro member
    exact ⟨_, map_opposite_mem_drawVectors member, map_opposite_map_opposite member⟩

end DiceOdds
