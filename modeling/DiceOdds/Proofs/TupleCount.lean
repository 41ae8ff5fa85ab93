import DiceOdds.Proofs.ThrowCount
import Mathlib.Data.Fintype.BigOperators
import Mathlib.Data.List.GetD

/-!
# Counting tuples of faces

The distribution of a sum of equal dice gives each outcome as many ways as there are
tuples of faces, one for each die, that add up to it.  A draw vector of equal dice is
such a tuple, listed die by die.
-/

namespace DiceOdds

/-- The faces of a tuple, die by die. -/
def Face.listed {count : Nat} (faces : Fin count → Nat) : List UInt64 :=
  List.ofFn fun die => UInt64.ofNat (faces die)

/-- The numbers on the faces that a draw vector lists. -/
def Face.tuple (count : Nat) (draws : List UInt64) : Fin count → Nat :=
  fun die => (draws.getD die 0).toNat

section Tuples

variable {count : Nat} {sides : UInt64}

theorem Face.toNat_of_mem_Icc {face : Nat} (member : face ∈ Finset.Icc 1 sides.toNat) :
    (UInt64.ofNat face).toNat = face := by
  have upper := (Finset.mem_Icc.mp member).2
  exact UInt64.toNat_ofNat_of_lt' (Nat.lt_of_le_of_lt upper sides.toNat_lt)

theorem Face.listed_mem_drawVectors {faces : Fin count → Nat}
    (member : ∀ die, faces die ∈ Finset.Icc 1 sides.toNat) :
    Face.listed faces ∈ drawVectors (List.replicate count sides) := by
  rw [mem_drawVectors_replicate_iff]
  refine ⟨List.length_ofFn, ?_⟩
  intro face listed
  obtain ⟨die, rfl⟩ := List.mem_ofFn.mp listed
  rw [Face.suits_iff, Face.toNat_of_mem_Icc (member die)]
  exact Finset.mem_Icc.mp (member die)

theorem Face.tuple_mem {draws : List UInt64}
    (member : draws ∈ drawVectors (List.replicate count sides)) (die : Fin count) :
    Face.tuple count draws die ∈ Finset.Icc 1 sides.toNat := by
  obtain ⟨rfl, suits⟩ := mem_drawVectors_replicate_iff.mp member
  have listed : draws.getD die 0 = draws[die] := List.getD_eq_getElem _ _ die.isLt
  rw [Face.tuple, listed, Finset.mem_Icc, ← Face.suits_iff]
  exact suits _ (List.getElem_mem die.isLt)

theorem Face.tuple_listed {faces : Fin count → Nat}
    (member : ∀ die, faces die ∈ Finset.Icc 1 sides.toNat) :
    Face.tuple count (Face.listed faces) = faces := by
  funext die
  simp [Face.tuple, Face.listed, Face.toNat_of_mem_Icc (member die)]

theorem Face.listed_tuple {draws : List UInt64} (length : draws.length = count) :
    Face.listed (Face.tuple count draws) = draws := by
  subst length
  apply List.ext_getElem
  · exact List.length_ofFn
  · intro die _ _
    simp [Face.listed, Face.tuple]

theorem faceSum_listed {faces : Fin count → Nat}
    (member : ∀ die, faces die ∈ Finset.Icc 1 sides.toNat) :
    faceSum (Face.listed faces) = ∑ die, faces die := by
  rw [faceSum, Face.listed, List.map_ofFn, List.sum_ofFn]
  apply Finset.sum_congr rfl
  intro die _
  exact Face.toNat_of_mem_Icc (member die)

/-- As many draw vectors of equal dice have a property as tuples of their faces. -/
theorem card_filter_drawVectors (count : Nat) (sides : UInt64)
    (holds : List UInt64 → Prop) [DecidablePred holds] :
    ((drawVectors (List.replicate count sides)).toFinset.filter holds).card =
      ((Fintype.piFinset fun _ : Fin count => Finset.Icc 1 sides.toNat).filter
        fun faces => holds (Face.listed faces)).card := by
  apply Finset.card_nbij' (Face.tuple count) Face.listed
  · intro draws member
    simp only [Finset.mem_coe, Finset.mem_filter, List.mem_toFinset,
      Fintype.mem_piFinset] at member ⊢
    have length := (mem_drawVectors_replicate_iff.mp member.1).1
    exact ⟨Face.tuple_mem member.1, by rw [Face.listed_tuple length]; exact member.2⟩
  · intro faces member
    simp only [Finset.mem_coe, Finset.mem_filter, List.mem_toFinset,
      Fintype.mem_piFinset] at member ⊢
    exact ⟨Face.listed_mem_drawVectors member.1, member.2⟩
  · intro draws member
    simp only [Finset.mem_coe, Finset.mem_filter, List.mem_toFinset] at member
    exact Face.listed_tuple (mem_drawVectors_replicate_iff.mp member.1).1
  · intro faces member
    simp only [Finset.mem_coe, Finset.mem_filter, Fintype.mem_piFinset] at member
    exact Face.tuple_listed member.1

/-- A sum has as many ways as there are tuples of faces with this sum. -/
theorem sumWays_eq_card_tuples (count : Nat) (sides : UInt64) (total : Nat) :
    sumWays count sides total =
      ((Fintype.piFinset fun _ : Fin count => Finset.Icc 1 sides.toNat).filter
        fun faces => ∑ die, faces die = total).card := by
  rw [sumWays_eq_card, card_filter_drawVectors]
  apply congrArg Finset.card
  apply Finset.filter_congr
  intro faces member
  rw [faceSum_listed (Fintype.mem_piFinset.mp member)]

end Tuples

/-- The draw vectors of a throw show an outcome as often as there are tuples of faces
that add up to it. -/
theorem Dice.count_results_sum_eq_card {count sides : UInt64}
    (room : count.toNat * sides.toNat < 2 ^ 63) (outcome : Int64) :
    (Dice.sum count (.numbered sides)).results.count outcome =
      ((Fintype.piFinset fun _ : Fin count.toNat => Finset.Icc 1 sides.toNat).filter
        fun faces => ∑ die, (faces die : Int) = outcome.toInt).card := by
  rw [Dice.count_results_sum room]
  split
  · rename_i natural
    rw [sumWays_eq_card_tuples]
    apply congrArg Finset.card
    apply Finset.filter_congr
    intro faces _
    rw [← Nat.cast_sum]
    omega
  · rename_i negative
    symm
    rw [Finset.card_eq_zero, Finset.filter_eq_empty_iff]
    intro faces _ total
    have natural : 0 ≤ ∑ die, (faces die : Int) :=
      Finset.sum_nonneg fun die _ => Int.natCast_nonneg (faces die)
    exact negative (total ▸ natural)

/-- The sum of some dice with numbered faces has a distribution exactly when the
greatest sum is a signed word.  Its outcomes are the numbers from the least sum to the
greatest one, and each has as many ways as there are tuples of faces that add up to
it. -/
theorem Distribution.sumOfDice_counts_tuples {count sides : UInt64}
    (countPositive : 0 < count) (sidesPositive : 0 < sides) :
    (count.toNat * sides.toNat < 2 ^ 63 →
      ∃ distribution, Distribution.sumOfDice count sides = .ok distribution ∧
        (∀ outcome, outcome ∈ distribution.outcomes ↔
          (count.toNat : Int) ≤ outcome.toInt ∧
            outcome.toInt ≤ count.toNat * sides.toNat) ∧
        ∀ outcome, distribution.frequency outcome =
          ((Fintype.piFinset fun _ : Fin count.toNat => Finset.Icc 1 sides.toNat).filter
            fun faces => ∑ die, (faces die : Int) = outcome.toInt).card) ∧
    (2 ^ 63 ≤ count.toNat * sides.toNat →
      Distribution.sumOfDice count sides = .error .overflow) := by
  constructor
  · intro room
    obtain ⟨distribution, success, counts⟩ :=
      Distribution.sumOfDice_counts (UInt64.lt_iff_toNat_lt.mp countPositive)
        (UInt64.lt_iff_toNat_lt.mp sidesPositive) room
    refine ⟨distribution, success, ?_, ?_⟩
    · intro outcome
      exact (counts.outcomes outcome).trans (Dice.mem_results_sum room outcome)
    · intro outcome
      rw [counts.frequency, Nat.one_mul, Dice.count_results_sum_eq_card room]
  · intro wide
    exact if_pos wide

/-- Three dice with four sides, and as many dice as a word can count with as many sides
as it can hold. -/
theorem three_four_sided_dice_count_tuples :
    (∃ distribution, Distribution.sumOfDice 3 4 = .ok distribution ∧
      (12 : Int64) ∈ distribution.outcomes ∧ (13 : Int64) ∉ distribution.outcomes ∧
      distribution.frequency 6 =
        ((Fintype.piFinset fun _ : Fin 3 => Finset.Icc (1 : Nat) 4).filter
          fun faces => ∑ die, (faces die : Int) = 6).card) ∧
    Distribution.sumOfDice 18446744073709551615 18446744073709551615 =
      .error .overflow := by
  obtain ⟨found, _⟩ := @Distribution.sumOfDice_counts_tuples 3 4 (by decide) (by decide)
  obtain ⟨_, refused⟩ := @Distribution.sumOfDice_counts_tuples 18446744073709551615
    18446744073709551615 (by decide) (by decide)
  obtain ⟨distribution, success, outcomes, ways⟩ := found (by decide)
  refine ⟨⟨distribution, success, ?_, ?_, ways 6⟩, refused (by decide)⟩
  · exact (outcomes 12).mpr (by decide)
  · exact fun listed => absurd ((outcomes 13).mp listed) (by decide)

end DiceOdds
