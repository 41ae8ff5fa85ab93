import DiceOdds.Distribution.Sweep
import DiceOdds.Proofs.SignedWords
import DiceOdds.Proofs.SumCount

/-!
# What a sweep counts

At every outcome of the lower half the terms of a sweep are the binomials of the
alternating sum: all divisions on the way are exact, and the positive terms
outweigh the negative ones by the number of ways.  So the sum of sound dice has
a distribution, which holds every sum with its number of ways, as soon as the
greatest sum is a signed word.
-/

namespace DiceOdds

/-- The terms alive at an outcome are the binomials of the alternating sum. -/
structure Sweep.At (count sides outcome : Nat) (sweep : Sweep) : Prop where
  terms : sweep.terms =
    (List.range ((outcome - count) / sides + 1)).map fun i =>
      (count.choose i, (outcome - sides * i - 1).choose (count - 1))
  choose : sweep.choose = count.choose ((outcome - count) / sides)

/-- The terms alive at an outcome are those whose dice can be pushed past their last
face. -/
theorem Sweep.lt_living_iff {count sides outcome index : Nat} (sidesPositive : 0 < sides)
    (least : count ≤ outcome) :
    index < (outcome - count) / sides + 1 ↔ count + sides * index ≤ outcome := by
  rw [Nat.lt_succ_iff, Nat.le_div_iff_mul_le sidesPositive, Nat.mul_comm]
  omega

/-- Below the greatest sum another die can be pushed past its last face. -/
theorem Sweep.pushed_lt {count sides outcome : Nat} (sidesPositive : 0 < sides)
    (least : count ≤ outcome) (below : outcome < count * sides + count) :
    (outcome - count) / sides < count := by
  rw [Nat.div_lt_iff_lt_mul sidesPositive]
  omega

/-- The second binomial of a living term is carried along without a rest. -/
theorem Sweep.advanceTail_choose {count sides outcome i : Nat}
    (positive : 0 < count) (alive : count + sides * i ≤ outcome) :
    Sweep.advanceTail count sides (outcome + 1) i
        ((outcome - sides * i - 1).choose (count - 1)) =
      (outcome + 1 - sides * i - 1).choose (count - 1) := by
  obtain ⟨lower, same⟩ : ∃ lower, outcome - sides * i = lower + 1 :=
    ⟨outcome - sides * i - 1, by omega⟩
  have upper : outcome + 1 - sides * i - 1 = lower + 1 := by omega
  have carried := Nat.choose_mul_succ_eq lower (count - 1)
  rw [Sweep.advanceTail, upper, same, Nat.add_sub_cancel, carried]
  apply Nat.mul_div_cancel
  omega

/-- The first binomial of a new term is found without a rest. -/
theorem Sweep.advanceChoose_choose {count i : Nat} (room : i < count) :
    Sweep.advanceChoose count (i + 1) (count.choose i) = count.choose (i + 1) := by
  have carried := Nat.choose_succ_right_eq count i
  have factor : count - (i + 1) + 1 = count - i := by omega
  rw [Sweep.advanceChoose, if_neg (Nat.succ_ne_zero i), factor, ← carried]
  exact Nat.mul_div_cancel _ (Nat.succ_pos i)

theorem Sweep.start_at (count sides : Nat) :
    Sweep.At count sides count (Sweep.start.advance count sides count) := by
  constructor
  · simp [Sweep.advance, Sweep.start, Sweep.advanceChoose]
  · simp [Sweep.advance, Sweep.start, Sweep.advanceChoose]

private theorem mapIdx_map_range {α β : Type} (length : Nat) (item : Nat → α)
    (change : Nat → α → β) :
    ((List.range length).map item).mapIdx change =
      (List.range length).map fun i => change i (item i) := by
  apply List.ext_getElem
  · simp
  · intro i _ _
    simp

/-- One step of a sweep below the middle keeps its terms binomials. -/
theorem Sweep.At.advance {count sides outcome : Nat} {sweep : Sweep}
    (invariant : Sweep.At count sides outcome sweep) (positive : 0 < count)
    (least : count ≤ outcome) (sidesPositive : 0 < sides)
    (below : outcome + 1 < count * sides + count) :
    Sweep.At count sides (outcome + 1) (sweep.advance count sides (outcome + 1)) := by
  have moved : outcome + 1 - count = outcome - count + 1 := by omega
  have alive : ∀ i ∈ List.range ((outcome - count) / sides + 1),
      count + sides * i ≤ outcome := by
    intro i member
    exact (Sweep.lt_living_iff sidesPositive least).mp (List.mem_range.mp member)
  have carried : (sweep.terms.mapIdx fun i term =>
      (term.1, Sweep.advanceTail count sides (outcome + 1) i term.2)) =
      (List.range ((outcome - count) / sides + 1)).map fun i =>
        (count.choose i, (outcome + 1 - sides * i - 1).choose (count - 1)) := by
    rw [invariant.terms, mapIdx_map_range]
    apply List.map_congr_left
    intro i member
    rw [Sweep.advanceTail_choose positive (alive i member)]
  by_cases another : (outcome + 1 - count) % sides = 0
  · have quotient : (outcome + 1 - count) / sides = (outcome - count) / sides + 1 := by
      rw [moved, Nat.succ_div_of_dvd]
      rw [← moved]
      exact Nat.dvd_of_mod_eq_zero another
    have pushed : sides * ((outcome - count) / sides + 1) = outcome + 1 - count := by
      rw [← quotient]
      exact Nat.mul_div_cancel' (Nat.dvd_of_mod_eq_zero another)
    have room : (outcome - count) / sides < count :=
      Sweep.pushed_lt sidesPositive least (by omega)
    have chosen : Sweep.advanceChoose count ((outcome - count) / sides + 1)
        sweep.choose = count.choose ((outcome - count) / sides + 1) := by
      rw [invariant.choose, Sweep.advanceChoose_choose room]
    have length : sweep.terms.length = (outcome - count) / sides + 1 := by
      simp [invariant.terms]
    simp only [Sweep.advance, if_pos another, carried, List.length_map,
      List.length_range, chosen]
    have last : outcome + 1 - sides * ((outcome - count) / sides + 1) - 1 =
        count - 1 := by omega
    constructor
    · rw [quotient]
      conv_rhs =>
        rw [List.range_succ, List.map_append, List.map_singleton, last,
          Nat.choose_self]
    · rw [quotient]
  · have quotient : (outcome + 1 - count) / sides = (outcome - count) / sides := by
      rw [moved, Nat.succ_div_of_not_dvd]
      intro divides
      rw [← moved] at divides
      exact another (Nat.mod_eq_zero_of_dvd divides)
    simp only [Sweep.advance, if_neg another, carried]
    constructor
    · rw [quotient]
    · rw [quotient]
      exact invariant.choose

private theorem signedSums_range (length : Nat) (term : Nat → Nat × Nat) :
    ((Sweep.signedSums ((List.range length).map term)).1 : ℤ) -
        (Sweep.signedSums ((List.range length).map term)).2 =
      ∑ i ∈ Finset.range length, (-1) ^ i * ((term i).1 * (term i).2 : ℤ) := by
  induction length generalizing term with
  | zero => simp [Sweep.signedSums]
  | succ length induction =>
      have rest := induction fun i => term (i + 1)
      rw [List.range_succ_eq_map, List.map_cons, List.map_map,
        Finset.sum_range_succ']
      simp only [Function.comp_def, Nat.succ_eq_add_one, Sweep.signedSums] at rest ⊢
      simp only [pow_succ, mul_neg, mul_one, neg_mul, Finset.sum_neg_distrib,
        ← rest]
      push_cast
      ring

/-- The added terms of a sweep outweigh the subtracted ones by the number of ways. -/
theorem Sweep.At.signedSums_eq {count outcome : Nat} {sides : UInt64} {sweep : Sweep}
    (invariant : Sweep.At count sides.toNat outcome sweep) (positive : 0 < count)
    (sidesPositive : 0 < sides.toNat) (least : count ≤ outcome) :
    (Sweep.signedSums sweep.terms).1 =
      (Sweep.signedSums sweep.terms).2 + sumWays count sides outcome := by
  have sums := signedSums_range ((outcome - count) / sides.toNat + 1) fun i =>
    (count.choose i, (outcome - sides.toNat * i - 1).choose (count - 1))
  rw [← sumWays_eq_sum positive sidesPositive least, ← invariant.terms] at sums
  omega

/-- The alternating sum of a sweep is the number of ways, so it is never
negative. -/
theorem Sweep.At.frequency? {count outcome : Nat} {sides : UInt64} {sweep : Sweep}
    (invariant : Sweep.At count sides.toNat outcome sweep) (positive : 0 < count)
    (sidesPositive : 0 < sides.toNat) (least : count ≤ outcome) :
    sweep.frequency? = some (sumWays count sides outcome) := by
  have sums := invariant.signedSums_eq positive sidesPositive least
  have balance : ¬ (Sweep.signedSums sweep.terms).1 <
      (Sweep.signedSums sweep.terms).2 := by omega
  simp only [Sweep.frequency?, if_neg balance, Option.some.injEq]
  omega

/-- The sweep is ready to go on to an outcome. -/
def Sweep.Ready (count sides outcome : Nat) (sweep : Sweep) : Prop :=
  (outcome = count ∧ sweep = .start) ∨
    (count < outcome ∧ Sweep.At count sides (outcome - 1) sweep)

theorem Sweep.Ready.advance {count sides outcome : Nat} {sweep : Sweep}
    (ready : Sweep.Ready count sides outcome sweep) (positive : 0 < count)
    (sidesPositive : 0 < sides) (below : outcome < count * sides + count) :
    Sweep.At count sides outcome (sweep.advance count sides outcome) := by
  rcases ready with ⟨rfl, rfl⟩ | ⟨above, invariant⟩
  · exact Sweep.start_at outcome sides
  · obtain ⟨before, rfl⟩ : ∃ before, outcome = before + 1 :=
      ⟨outcome - 1, by omega⟩
    exact invariant.advance positive (by omega) sidesPositive below

/-- The distribution holds the sums below `reached`, the sums opposite to them,
and nothing else. -/
def Sweep.Filled (count : Nat) (sides : UInt64) (reached : Nat)
    (distribution : Distribution) : Prop :=
  ∀ query : Int64, distribution.frequency? query =
    if (count : Int) ≤ query.toInt ∧ query.toInt ≤ count * sides.toNat ∧
        (query.toInt < reached ∨
          count * sides.toNat + count < query.toInt + reached) then
      some (sumWays count sides query.toInt.toNat)
    else
      none

theorem Sweep.empty_filled (count : Nat) (sides : UInt64) :
    Sweep.Filled count sides count .empty := by
  intro query
  rw [Distribution.frequency?_empty, if_neg]
  omega

/-- An outcome and its opposite widen what is held by one at either end. -/
theorem Sweep.Filled.put {count reached : Nat} {sides : UInt64}
    {distribution : Distribution}
    (filled : Sweep.Filled count sides reached distribution)
    (lower : count ≤ reached) (upper : reached ≤ count * sides.toNat)
    (room : count * sides.toNat < 2 ^ 63) :
    Sweep.Filled count sides (reached + 1)
      ((distribution.put (Int64.ofNat (Sweep.opposite count sides.toNat reached))
        (sumWays count sides reached)).put (Int64.ofNat reached)
          (sumWays count sides reached)) := by
  intro query
  have mirrored := sumWays_opposite lower upper
  have reachedWord : isWord (reached : Int) := ⟨by omega, by omega⟩
  have oppositeWord :
      isWord ((count * sides.toNat - (reached - count) : Nat) : Int) :=
    ⟨by omega, by omega⟩
  have sameReached : Int64.ofNat reached = query ↔ (reached : Int) = query.toInt :=
    ofInt_eq_iff reachedWord
  have sameOpposite :
      Int64.ofNat (count * sides.toNat - (reached - count)) = query ↔
        ((count * sides.toNat - (reached - count) : Nat) : Int) = query.toInt :=
    ofInt_eq_iff oppositeWord
  rw [Sweep.opposite, Distribution.frequency?_put, Distribution.frequency?_put,
    filled query]
  simp only [sameReached, sameOpposite]
  by_cases atReached : (reached : Int) = query.toInt
  · rw [if_pos atReached, if_pos (by omega), ← atReached, Int.toNat_natCast]
  · rw [if_neg atReached]
    by_cases atOpposite :
        ((count * sides.toNat - (reached - count) : Nat) : Int) = query.toInt
    · rw [if_pos atOpposite, if_pos (by omega), ← atOpposite,
        Int.toNat_natCast, mirrored]
    · rw [if_neg atOpposite]
      congr 1
      rw [eq_iff_iff]
      omega

/-- A sweep never meets a negative number of ways, and it fills in all outcomes
it goes through. -/
theorem Sweep.fill_filled {count : Nat} {sides : UInt64} (positive : 0 < count)
    (sidesPositive : 0 < sides.toNat) (room : count * sides.toNat < 2 ^ 63)
    (length reached : Nat) (sweep : Sweep) (distribution : Distribution)
    (ready : Sweep.Ready count sides.toNat reached sweep)
    (filled : Sweep.Filled count sides reached distribution)
    (lower : count ≤ reached)
    (upper : reached + length ≤ count * sides.toNat + 1) :
    ∃ full, Sweep.fill count sides.toNat (List.range' reached length) sweep
        distribution = .ok full ∧
      Sweep.Filled count sides (reached + length) full := by
  induction length generalizing reached sweep distribution with
  | zero => exact ⟨distribution, rfl, filled⟩
  | succ length induction =>
      have advanced := ready.advance positive sidesPositive (by omega)
      have ways := advanced.frequency? positive sidesPositive lower
      have ahead := induction (reached + 1) _ _ (.inr ⟨by omega, advanced⟩)
        (filled.put lower (by omega) room) (by omega) (by omega)
      rw [Nat.add_assoc, Nat.add_comm 1] at ahead
      simpa only [List.range'_succ, Sweep.fill, ways] using ahead

end DiceOdds
