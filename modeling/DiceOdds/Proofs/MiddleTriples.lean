import DiceOdds.Proofs.FudgeSides

/-!
# Counting triples by their middle

The middle one of three numbers is the one that at least two of them do not exceed and
that does not exceed at least two of them.  The distribution of the middle one of three
dice gives each outcome as many ways as there are triples of faces with this middle: for
numbered dice over the numbers on the faces, for Fudge dice over the six sides of a cube
on which each value stands twice.
-/

namespace DiceOdds

/-- At least two of three numbers do not exceed this one, and it does not exceed at least
two of them. -/
def Middle.IsMedian (numbers : Fin 3 → Int) (middle : Int) : Prop :=
  2 ≤ (Finset.univ.filter fun die => numbers die ≤ middle).card ∧
    2 ≤ (Finset.univ.filter fun die => middle ≤ numbers die).card

instance (numbers : Fin 3 → Int) (middle : Int) :
    Decidable (Middle.IsMedian numbers middle) := by
  unfold Middle.IsMedian
  infer_instance

theorem Middle.isMedian_iff {numbers : Fin 3 → Int} {middle : Int} :
    Middle.IsMedian numbers middle ↔
      max (min (numbers 0) (numbers 1)) (min (max (numbers 0) (numbers 1)) (numbers 2)) =
        middle := by
  simp only [Middle.IsMedian, Finset.card_filter, Fin.sum_univ_three]
  split_ifs <;> omega

/-- Three dice show the median of what their faces show. -/
theorem Dice.shown_middle_eq_iff {faces : Faces} (room : faces.reach < 2 ^ 63)
    {tuple : Fin 3 → Nat}
    (member : ∀ die, tuple die ∈ Finset.Icc 1 faces.outcomes.toNat) (outcome : Int64) :
    (Dice.middle faces).shown (Face.listed tuple) = outcome ↔
      Middle.IsMedian (fun die => faces.shown (UInt64.ofNat (tuple die))) outcome.toInt := by
  have read : ∀ die, (Int64.ofInt (faces.shown (UInt64.ofNat (tuple die)))).toInt =
      faces.shown (UInt64.ofNat (tuple die)) := by
    intro die
    have suits : 1 ≤ UInt64.ofNat (tuple die) ∧ UInt64.ofNat (tuple die) ≤ faces.outcomes := by
      rw [Face.suits_iff, Face.toNat_of_mem_Icc (member die)]
      exact Finset.mem_Icc.mp (member die)
    have bounds := Faces.shown_bounds suits
    exact toInt_ofInt_of_isWord ⟨by omega, by omega⟩
  have listed : Face.listed tuple =
      [UInt64.ofNat (tuple 0), UInt64.ofNat (tuple 1), UInt64.ofNat (tuple 2)] := by
    simp [Face.listed, List.ofFn_succ]
  rw [listed, ← Int64.toInt_inj, Middle.isMedian_iff]
  simp only [Dice.shown, middleOf, toInt_max, toInt_min, read]

/-- The draw vectors of three dice show an outcome as often as there are triples of faces
with this median. -/
theorem Dice.count_results_middle {faces : Faces} (room : faces.reach < 2 ^ 63)
    (outcome : Int64) :
    (Dice.middle faces).results.count outcome =
      ((Fintype.piFinset fun _ : Fin 3 => Finset.Icc 1 faces.outcomes.toNat).filter
        fun tuple => Middle.IsMedian (fun die => faces.shown (UInt64.ofNat (tuple die)))
          outcome.toInt).card := by
  have plan : (Dice.middle faces).plan = List.replicate 3 faces.outcomes := rfl
  rw [Dice.results, count_map_drawVectors, plan, card_filter_drawVectors]
  apply congrArg Finset.card
  apply Finset.filter_congr
  intro tuple member
  exact Dice.shown_middle_eq_iff room (Fintype.mem_piFinset.mp member) outcome

theorem Dice.count_results_middle_numbered {sides : UInt64} (room : sides.toNat < 2 ^ 63)
    (outcome : Int64) :
    (Dice.middle (.numbered sides)).results.count outcome =
      ((Fintype.piFinset fun _ : Fin 3 => Finset.Icc 1 sides.toNat).filter
        fun faces => Middle.IsMedian (fun die => (faces die : Int)) outcome.toInt).card := by
  rw [@Dice.count_results_middle (.numbered sides) room outcome]
  apply congrArg Finset.card
  apply Finset.filter_congr
  intro faces member
  have shown : ∀ die, (Faces.numbered sides).shown (UInt64.ofNat (faces die)) = faces die := by
    intro die
    rw [Faces.shown, Face.toNat_of_mem_Icc (Fintype.mem_piFinset.mp member die)]
  simp only [shown]

theorem Dice.count_results_middle_fudge (outcome : Int64) :
    Fudge.facesPerValue ^ 3 * (Dice.middle .fudge).results.count outcome =
      (Finset.univ.filter fun dice : Fin 3 → Fin 6 =>
        Middle.IsMedian (fun die => Fudge.carried (dice die)) outcome.toInt).card := by
  have room : Faces.fudge.reach < 2 ^ 63 := by decide
  have counted := Fudge.card_filter_sides fun tuple : Fin 3 → Nat =>
    Middle.IsMedian (fun die => Faces.fudge.shown (UInt64.ofNat (tuple die))) outcome.toInt
  simp only [Fudge.shown_face] at counted
  rw [counted, Dice.count_results_middle room]
  rfl

theorem Dice.mem_results_middle_fudge {outcome : Int64} :
    outcome ∈ (Dice.middle .fudge).results ↔
      -1 ≤ outcome.toInt ∧ outcome.toInt ≤ 1 := by
  have three : ∀ result : Int64, result ∈ (Dice.middle (.numbered 3)).results ↔
      1 ≤ result.toInt ∧ result.toInt ≤ 3 := fun _ => Dice.mem_results_middle (by decide)
  rw [Dice.results_middle_fudge,
    mem_map_lowered three (by decide) (by decide) (by decide)]
  rfl

/-- The middle one of three dice has a distribution exactly when the last face is a signed
word.  Its outcomes are the faces, and each has as many ways as there are triples of faces
with this median.  The middle one of three Fudge dice counts the triples of their sides in
the same way. -/
theorem Distribution.middleOfDice_counts_triples (sides : UInt64) :
    (sides.toNat < 2 ^ 63 →
      ∃ distribution, Distribution.middleOfDice sides = .ok distribution ∧
        (∀ outcome, outcome ∈ distribution.outcomes ↔
          1 ≤ outcome.toInt ∧ outcome.toInt ≤ sides.toNat) ∧
        (∀ outcome, distribution.frequency outcome =
          ((Fintype.piFinset fun _ : Fin 3 => Finset.Icc 1 sides.toNat).filter
            fun faces => Middle.IsMedian (fun die => (faces die : Int))
              outcome.toInt).card) ∧
        distribution.total = sides.toNat ^ 3) ∧
    (2 ^ 63 ≤ sides.toNat → Distribution.middleOfDice sides = .error .overflow) ∧
    ∃ distribution, Distribution.middleOfFudge = .ok distribution ∧
      (∀ outcome, outcome ∈ distribution.outcomes ↔
        -1 ≤ outcome.toInt ∧ outcome.toInt ≤ 1) ∧
      (∀ outcome, distribution.frequency outcome =
        (Finset.univ.filter fun dice : Fin 3 → Fin 6 =>
          Middle.IsMedian (fun die => Fudge.carried (dice die)) outcome.toInt).card) ∧
      distribution.total = 6 ^ 3 := by
  refine ⟨?_, ?_, ?_⟩
  · intro room
    obtain ⟨distribution, success, counts⟩ := Distribution.middleOfDice_counts room
    refine ⟨distribution, success, ?_, ?_, ?_⟩
    · intro outcome
      rw [counts.outcomes, Dice.mem_results_middle room]
    · intro outcome
      rw [counts.frequency, Nat.one_mul, Dice.count_results_middle_numbered room]
    · rw [counts.total, Nat.one_mul, Dice.length_results_middle]
      rfl
  · intro wide
    exact if_pos wide
  · obtain ⟨distribution, success, counts⟩ := Distribution.middleOfFudge_counts
    refine ⟨distribution, success, ?_, ?_, ?_⟩
    · intro outcome
      rw [counts.outcomes, Dice.mem_results_middle_fudge]
    · intro outcome
      rw [counts.frequency, ← Dice.count_results_middle_fudge]
      rfl
    · rw [counts.total, Dice.length_results_middle]
      rfl

/-- Three dice with four sides show two as often as there are triples with this median,
and the last face must be a word. -/
theorem three_four_sided_dice_in_the_middle :
    (∃ distribution, Distribution.middleOfDice 4 = .ok distribution ∧
      distribution.frequency 2 =
        ((Fintype.piFinset fun _ : Fin 3 => Finset.Icc (1 : Nat) 4).filter
          fun faces => Middle.IsMedian (fun die => (faces die : Int)) 2).card ∧
      distribution.total = 64) ∧
    Distribution.middleOfDice 9223372036854775808 = .error .overflow := by
  obtain ⟨found, _⟩ := Distribution.middleOfDice_counts_triples 4
  obtain ⟨_, refused, _⟩ := Distribution.middleOfDice_counts_triples 9223372036854775808
  obtain ⟨distribution, success, _, ways, total⟩ := found (by decide)
  exact ⟨⟨distribution, success, ways 2, total⟩, refused (by decide)⟩

end DiceOdds
