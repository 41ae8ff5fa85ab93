import DiceOdds.Proofs.TupleCount

/-!
# Counting the sides of Fudge dice

A Fudge die is a cube whose six sides carry minus one, zero and plus one, each of them
twice.  Its odds are computed with the faces of a die numbered from one to three, and
each face stands for two sides.  So every tuple of faces stands for equally many tuples
of sides, and the distribution of a sum of Fudge dice gives each outcome as many ways as
there are tuples of sides that add up to it.
-/

namespace DiceOdds

/-- What the sides of a Fudge die carry. -/
def Fudge.carried : Fin 6 → Int :=
  ![-1, -1, 0, 0, 1, 1]

/-- The face of a die numbered from one to three that stands for a side of a Fudge die. -/
def Fudge.face (side : Fin 6) : Nat :=
  side.val / 2 + 1

theorem Fudge.face_mem_Icc (side : Fin 6) : Fudge.face side ∈ Finset.Icc 1 3 := by
  rw [Finset.mem_Icc, Fudge.face]
  omega

theorem Fudge.carried_eq (side : Fin 6) : Fudge.carried side = Fudge.face side - 2 := by
  revert side
  decide

theorem Fudge.shown_face (side : Fin 6) :
    Faces.fudge.shown (UInt64.ofNat (Fudge.face side)) = Fudge.carried side := by
  revert side
  decide

theorem Fudge.card_face_eq {face : Nat} (member : face ∈ Finset.Icc 1 3) :
    (Finset.univ.filter fun side => Fudge.face side = face).card = Fudge.facesPerValue := by
  revert face
  decide

section Sides

variable {count : Nat}

/-- Each tuple of faces stands for equally many tuples of sides. -/
theorem Fudge.card_sides_eq {tuple : Fin count → Nat}
    (member : ∀ die, tuple die ∈ Finset.Icc 1 3) :
    (Finset.univ.filter fun sides : Fin count → Fin 6 =>
      (fun die => Fudge.face (sides die)) = tuple).card = Fudge.facesPerValue ^ count := by
  have product : (Finset.univ.filter fun sides : Fin count → Fin 6 =>
      (fun die => Fudge.face (sides die)) = tuple) =
      Fintype.piFinset fun die =>
        Finset.univ.filter fun side => Fudge.face side = tuple die := by
    ext sides
    simp only [Finset.mem_filter, Finset.mem_univ, true_and, Fintype.mem_piFinset,
      funext_iff]
  rw [product, Fintype.card_piFinset]
  simp only [Fudge.card_face_eq (member _), Finset.prod_const, Finset.card_univ,
    Fintype.card_fin]

/-- A property of the faces holds for as many tuples of sides as its tuples of faces
stand for. -/
theorem Fudge.card_filter_sides (holds : (Fin count → Nat) → Prop) [DecidablePred holds] :
    (Finset.univ.filter fun sides : Fin count → Fin 6 =>
        holds fun die => Fudge.face (sides die)).card =
      Fudge.facesPerValue ^ count *
        ((Fintype.piFinset fun _ : Fin count => Finset.Icc 1 3).filter holds).card := by
  have faces : ∀ sides ∈ Finset.univ.filter fun sides : Fin count → Fin 6 =>
      holds fun die => Fudge.face (sides die),
      (fun die => Fudge.face (sides die)) ∈
        (Fintype.piFinset fun _ : Fin count => Finset.Icc 1 3).filter holds := by
    intro sides member
    rw [Finset.mem_filter, Fintype.mem_piFinset]
    exact ⟨fun die => Fudge.face_mem_Icc (sides die), (Finset.mem_filter.mp member).2⟩
  have fibre : ∀ tuple ∈ (Fintype.piFinset fun _ : Fin count => Finset.Icc 1 3).filter holds,
      ((Finset.univ.filter fun sides : Fin count → Fin 6 =>
        holds fun die => Fudge.face (sides die)).filter fun sides =>
          (fun die => Fudge.face (sides die)) = tuple).card =
        Fudge.facesPerValue ^ count := by
    intro tuple member
    rw [Finset.mem_filter, Fintype.mem_piFinset] at member
    rw [← Fudge.card_sides_eq member.1, Finset.filter_filter]
    apply congrArg Finset.card
    apply Finset.filter_congr
    intro sides _
    exact and_iff_right_of_imp fun same => same ▸ member.2
  rw [Finset.card_eq_sum_card_fiberwise faces, Finset.sum_congr rfl fibre, Finset.sum_const,
    smul_eq_mul, Nat.mul_comm]

theorem Fudge.sum_carried (sides : Fin count → Fin 6) :
    ∑ die, Fudge.carried (sides die) =
      ∑ die, (Fudge.face (sides die) : Int) - 2 * count := by
  simp only [Fudge.carried_eq, Finset.sum_sub_distrib, Finset.sum_const, Finset.card_univ,
    Fintype.card_fin, nsmul_eq_mul, Int.mul_comm]

end Sides

/-- Numbers in a row are in a row again when each of them is lowered. -/
theorem mem_map_lowered {results : List Int64} {least greatest offset : Int}
    (within : ∀ result, result ∈ results ↔
      least ≤ result.toInt ∧ result.toInt ≤ greatest)
    (down : 0 ≤ offset) (lower : -2 ^ 63 ≤ least - offset) (upper : greatest < 2 ^ 63)
    {outcome : Int64} :
    outcome ∈ (results.map fun result => Int64.ofInt (result.toInt - offset)) ↔
      least - offset ≤ outcome.toInt ∧ outcome.toInt ≤ greatest - offset := by
  simp only [List.mem_map, within]
  constructor
  · rintro ⟨result, bounds, rfl⟩
    have word : isWord (result.toInt - offset) := ⟨by omega, by omega⟩
    rw [toInt_ofInt_of_isWord word]
    omega
  · intro bounds
    have word : isWord (outcome.toInt + offset) := ⟨by omega, by omega⟩
    refine ⟨Int64.ofInt (outcome.toInt + offset), ?_, ?_⟩
    · rw [toInt_ofInt_of_isWord word]
      omega
    · rw [toInt_ofInt_of_isWord word, Int.add_sub_cancel, Int64.ofInt_toInt]

section Sums

variable {count : UInt64}

/-- Fudge dice show the sum of their faces, lowered by two for each die. -/
theorem Dice.shown_sum_fudge_eq_iff (room : count.toNat < 2 ^ 32)
    {tuple : Fin count.toNat → Nat} (member : ∀ die, tuple die ∈ Finset.Icc 1 3)
    (outcome : Int64) :
    (Dice.sum count .fudge).shown (Face.listed tuple) = outcome ↔
      ∑ die, (tuple die : Int) - 2 * count.toNat = outcome.toInt := by
  have drawn := @Face.listed_mem_drawVectors _ 3 tuple member
  have length : (Face.listed tuple).length = count.toNat := List.length_ofFn
  have bounds := faceSum_bounds drawn
  rw [toNat_three] at bounds
  have shown : ((Face.listed tuple).map Faces.fudge.shown).sum =
      ∑ die, (tuple die : Int) - 2 * count.toNat := by
    rw [shown_sum_fudge, @faceSum_listed _ 3 tuple member, length, Nat.cast_sum]
  have word : isWord ((Face.listed tuple).map Faces.fudge.shown).sum := by
    rw [shown_sum_fudge, length]
    exact ⟨by omega, by omega⟩
  rw [Dice.shown, ofInt_eq_iff word, shown]

/-- The draw vectors of Fudge dice show an outcome as often as there are tuples of sides
that add up to it, once each face is taken for two sides. -/
theorem Dice.count_results_sum_fudge (room : count.toNat < 2 ^ 32) (outcome : Int64) :
    Fudge.facesPerValue ^ count.toNat * (Dice.sum count .fudge).results.count outcome =
      (Finset.univ.filter fun sides : Fin count.toNat → Fin 6 =>
        ∑ die, Fudge.carried (sides die) = outcome.toInt).card := by
  have plan : (Dice.sum count .fudge).plan = List.replicate count.toNat 3 := rfl
  simp only [Fudge.sum_carried]
  rw [Fudge.card_filter_sides fun faces =>
    ∑ die, (faces die : Int) - 2 * count.toNat = outcome.toInt]
  rw [Dice.results, count_map_drawVectors, plan, card_filter_drawVectors, toNat_three]
  apply congrArg (Fudge.facesPerValue ^ count.toNat * Finset.card ·)
  apply Finset.filter_congr
  intro tuple member
  exact Dice.shown_sum_fudge_eq_iff room (Fintype.mem_piFinset.mp member) outcome

theorem Dice.mem_results_sum_fudge (room : count.toNat < 2 ^ 32) {outcome : Int64} :
    outcome ∈ (Dice.sum count .fudge).results ↔
      -(count.toNat : Int) ≤ outcome.toInt ∧ outcome.toInt ≤ count.toNat := by
  have fits : count.toNat * (3 : UInt64).toNat < 2 ^ 63 := by
    rw [toNat_three]
    omega
  rw [Dice.results_sum_fudge room,
    mem_map_lowered (Dice.mem_results_sum fits) (by omega) (by omega) (by omega), toNat_three]
  omega

theorem Dice.length_results_sum (faces : Faces) :
    (Dice.sum count faces).results.length = faces.outcomes.toNat ^ count.toNat := by
  have plan : (Dice.sum count faces).plan = List.replicate count.toNat faces.outcomes := rfl
  rw [Dice.results, List.length_map, length_drawVectors, plan, List.map_replicate,
    List.prod_replicate]

/-- The sum of some Fudge dice has a distribution exactly when their number fits 32 bits.
Its outcomes are the numbers as far from zero as there are dice, and each has as many
ways as there are tuples of sides that add up to it.  Every outcome of as many dice
numbered from one to three is found again, lowered by two for each die. -/
theorem Distribution.sumOfFudge_counts_sides (positive : 0 < count) :
    (count.toNat < 2 ^ 32 →
      ∃ numbered distribution, Distribution.sumOfDice count 3 = .ok numbered ∧
        Distribution.sumOfFudge count = .ok distribution ∧
        (∀ outcome, outcome ∈ distribution.outcomes ↔
          -(count.toNat : Int) ≤ outcome.toInt ∧ outcome.toInt ≤ count.toNat) ∧
        (∀ outcome, distribution.frequency outcome =
          (Finset.univ.filter fun sides : Fin count.toNat → Fin 6 =>
            ∑ die, Fudge.carried (sides die) = outcome.toInt).card) ∧
        distribution.total = 6 ^ count.toNat ∧
        ∀ outcome ∈ numbered.outcomes, ∃ lowered ∈ distribution.outcomes,
          lowered.toInt = outcome.toInt - 2 * count.toNat) ∧
    (2 ^ 32 ≤ count.toNat → Distribution.sumOfFudge count = .error .overflow) := by
  constructor
  · intro room
    have diced : 0 < count.toNat := UInt64.lt_iff_toNat_lt.mp positive
    have fits : count.toNat * (3 : UInt64).toNat < 2 ^ 63 := by
      rw [toNat_three]
      omega
    obtain ⟨numbered, numberedSuccess, numberedCounts⟩ :=
      Distribution.sumOfDice_counts diced (by decide) fits
    obtain ⟨distribution, success, counts⟩ := Distribution.sumOfFudge_counts diced room
    have outcomes : ∀ outcome, outcome ∈ distribution.outcomes ↔
        -(count.toNat : Int) ≤ outcome.toInt ∧ outcome.toInt ≤ count.toNat := by
      intro outcome
      rw [counts.outcomes, Dice.mem_results_sum_fudge room]
    refine ⟨numbered, distribution, numberedSuccess, success, outcomes, ?_, ?_, ?_⟩
    · intro outcome
      rw [counts.frequency, ← Dice.count_results_sum_fudge room]
      rfl
    · have sides : Faces.fudge.outcomes.toNat = 3 := toNat_three
      rw [counts.total, Dice.length_results_sum, sides, ← Nat.mul_pow]
    · intro outcome member
      rw [numberedCounts.outcomes, Dice.mem_results_sum fits, toNat_three] at member
      have word : isWord (outcome.toInt - 2 * count.toNat) := ⟨by omega, by omega⟩
      have moved := toInt_ofInt_of_isWord word
      refine ⟨Int64.ofInt (outcome.toInt - 2 * count.toNat), ?_, moved⟩
      rw [outcomes, moved]
      omega
  · intro wide
    exact if_pos wide

/-- Two Fudge dice cancel out on twelve pairs of sides, and more dice than 32 bits can
count are refused. -/
theorem two_fudge_dice_count_sides :
    (∃ distribution, Distribution.sumOfFudge 2 = .ok distribution ∧
      (-2 : Int64) ∈ distribution.outcomes ∧ (3 : Int64) ∉ distribution.outcomes ∧
      distribution.frequency 0 = 12 ∧ distribution.total = 36) ∧
    Distribution.sumOfFudge 4294967296 = .error .overflow := by
  obtain ⟨found, _⟩ := @Distribution.sumOfFudge_counts_sides 2 (by decide)
  obtain ⟨_, refused⟩ := @Distribution.sumOfFudge_counts_sides 4294967296 (by decide)
  obtain ⟨_, distribution, _, success, outcomes, ways, total, _⟩ := found (by decide)
  have pairs : (Finset.univ.filter fun sides : Fin 2 → Fin 6 =>
      ∑ die, Fudge.carried (sides die) = 0).card = 12 := by
    decide +kernel
  refine ⟨⟨distribution, success, ?_, ?_, (ways 0).trans pairs, total⟩, refused (by decide)⟩
  · exact (outcomes (-2)).mpr (by decide)
  · exact fun listed => absurd ((outcomes 3).mp listed) (by decide)

end Sums

end DiceOdds
