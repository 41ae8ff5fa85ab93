import DiceOdds.Distribution.Evaluation
import DiceOdds.Proofs.MiddleCount
import DiceOdds.Proofs.RollPlan
import DiceOdds.Proofs.SweepCount

/-!
# Counting throws

The distribution of sound dice counts what their draw vectors show.  For a sum
of numbered dice this is what the sweep counts; for the middle one of three the
faces of each die are parted into those below, at and above the outcome.  A
Fudge die is a die with three sides, moved by two, on which every way is two
ways.
-/

namespace DiceOdds

/-- What the draw vectors of a throw show. -/
def Dice.results (dice : Dice) : List Int64 :=
  (drawVectors dice.plan).map dice.shown

/-- How many Fudge dice are thrown. -/
def Dice.fudgeDice (dice : Dice) : Nat :=
  match dice.faces with
  | .numbered _ => 0
  | .fudge => dice.thrown.toNat

theorem shown_sum (sides : UInt64) (draws : List UInt64) :
    (draws.map (Faces.numbered sides).shown).sum = faceSum draws := by
  rw [faceSum, Nat.cast_list_sum, List.map_map]
  rfl

theorem Dice.results_sum (count sides : UInt64) :
    (Dice.sum count (.numbered sides)).results =
      (((drawVectors (List.replicate count.toNat sides)).map faceSum).map
        fun sum : Nat => (sum : Int)).map Int64.ofInt := by
  simp only [Dice.results, Dice.plan, Dice.thrown, Dice.faces, Faces.outcomes,
    List.map_map]
  apply List.map_congr_left
  intro draws _
  simp only [Dice.shown, shown_sum, Function.comp_apply]

theorem Dice.count_results_sum {count sides : UInt64}
    (room : count.toNat * sides.toNat < 2 ^ 63) (query : Int64) :
    (Dice.sum count (.numbered sides)).results.count query =
      if 0 ≤ query.toInt then sumWays count.toNat sides query.toInt.toNat
      else 0 := by
  rw [Dice.results_sum, count_map_ofInt]
  · split
    · rename_i positive
      obtain ⟨total, natural⟩ := Int.eq_ofNat_of_zero_le positive
      rw [natural, List.count_map_of_injective _ _ Nat.cast_injective]
      rfl
    · rename_i negative
      apply List.count_eq_zero_of_not_mem
      intro member
      obtain ⟨total, _, natural⟩ := List.mem_map.mp member
      exact negative (natural ▸ Int.natCast_nonneg total)
  · intro value member
    obtain ⟨total, totalMember, rfl⟩ := List.mem_map.mp member
    obtain ⟨draws, drawsMember, rfl⟩ := List.mem_map.mp totalMember
    have bounds := faceSum_bounds drawsMember
    exact ⟨by omega, by omega⟩

theorem Dice.mem_results_sum {count sides : UInt64}
    (room : count.toNat * sides.toNat < 2 ^ 63) (query : Int64) :
    query ∈ (Dice.sum count (.numbered sides)).results ↔
      (count.toNat : Int) ≤ query.toInt ∧
        query.toInt ≤ count.toNat * sides.toNat := by
  rw [← List.count_pos_iff, Dice.count_results_sum room]
  split
  · rw [sumWays_pos_iff]
    omega
  · omega

theorem sumWays_one {sides : UInt64} {face : Nat} (lower : 1 ≤ face)
    (upper : face ≤ sides.toNat) : sumWays 1 sides face = 1 := by
  have single : drawVectors (List.replicate 1 sides) =
      (Face.all sides).map fun face => [face] := by
    rw [List.map_eq_flatMap]
    rfl
  have faces : (drawVectors (List.replicate 1 sides)).map faceSum =
      List.range' 1 sides.toNat := by
    rw [single, List.map_map, ← Face.toNat_all]
    rfl
  rw [sumWays, faces]
  apply List.count_eq_one_of_mem List.nodup_range'
  exact List.mem_range'_1.mpr ⟨lower, by omega⟩

/-- A distribution that is given by a table of the faces of a die. -/
theorem frequency?_ofFaces {sides : Nat} (room : sides < 2 ^ 63) (share : Nat → Nat)
    (query : Int64) (ways : Nat) :
    (Distribution.ofList ((List.range' 1 sides).map fun face =>
        (Int64.ofNat face, share face))).frequency? query = some ways ↔
      1 ≤ query.toInt ∧ query.toInt ≤ sides ∧ ways = share query.toInt.toNat := by
  have word : ∀ face ∈ List.range' 1 sides, isWord (face : Int) := by
    intro face member
    have bounds := List.mem_range'_1.mp member
    exact ⟨by omega, by omega⟩
  rw [Distribution.frequency?_ofList]
  · simp only [List.mem_map, Prod.mk.injEq]
    constructor
    · intro ⟨face, member, equality, shared⟩
      have value : (face : Int) = query.toInt :=
        (ofInt_eq_iff (word face member)).mp equality
      have bounds := List.mem_range'_1.mp member
      rw [← value, Int.toNat_natCast]
      exact ⟨by omega, by omega, shared.symm⟩
    · intro ⟨lower, upper, shared⟩
      obtain ⟨face, value⟩ := Int.eq_ofNat_of_zero_le (Int.le_trans (by decide) lower)
      have member : face ∈ List.range' 1 sides :=
        List.mem_range'_1.mpr ⟨by omega, by omega⟩
      rw [value, Int.toNat_natCast] at shared
      exact ⟨face, member, (ofInt_eq_iff (word face member)).mpr value.symm,
        shared.symm⟩
  · rw [List.map_map]
    apply List.Nodup.map_on _ List.nodup_range'
    intro left leftMember right rightMember equality
    have value : (left : Int) = (Int64.ofNat right).toInt :=
      (ofInt_eq_iff (word left leftMember)).mp equality
    have same : (Int64.ofNat right).toInt = right :=
      toInt_ofInt_of_isWord (word right rightMember)
    omega

/-- The sum of numbered dice has a distribution whenever it is sure to be a
signed word. -/
theorem Distribution.sumOfDice_counts {count sides : UInt64}
    (countPositive : 0 < count.toNat) (sidesPositive : 0 < sides.toNat)
    (room : count.toNat * sides.toNat < 2 ^ 63) :
    ∃ distribution, Distribution.sumOfDice count sides = .ok distribution ∧
      distribution.Counts 1 (Dice.sum count (.numbered sides)).results := by
  rw [Distribution.sumOfDice, if_neg (Nat.not_le.mpr room)]
  by_cases single : count = 1
  · rw [if_pos single]
    refine ⟨_, rfl, counts_of_frequency? ?_⟩
    intro query ways
    rw [single] at room ⊢
    have one : (1 : UInt64).toNat = 1 := rfl
    have wide : sides.toNat < 2 ^ 63 := by
      rw [one] at room
      omega
    rw [Distribution.oneDie, frequency?_ofFaces wide, Dice.mem_results_sum room,
      Dice.count_results_sum room, one]
    constructor
    · intro ⟨lower, upper, single⟩
      rw [if_pos (by omega), sumWays_one (by omega) (by omega)]
      omega
    · intro ⟨⟨lower, upper⟩, counted⟩
      rw [if_pos (by omega), sumWays_one (by omega) (by omega)] at counted
      omega
  · rw [if_neg single]
    have least : count.toNat ≤ count.toNat * sides.toNat :=
      Nat.le_mul_of_pos_right _ sidesPositive
    obtain ⟨distribution, success, filled⟩ :=
      Sweep.fill_filled countPositive sidesPositive room
        ((count.toNat * sides.toNat - count.toNat) / 2 + 1) count.toNat .start
        .empty (.inl ⟨rfl, rfl⟩) (Sweep.empty_filled _ _) (Nat.le_refl _) (by omega)
    refine ⟨distribution, success, counts_of_frequency? ?_⟩
    intro query ways
    rw [filled query, Dice.mem_results_sum room, Dice.count_results_sum room]
    by_cases within : (count.toNat : Int) ≤ query.toInt ∧
        query.toInt ≤ count.toNat * sides.toNat
    · rw [if_pos (by omega), if_pos (by omega), Option.some.injEq, Nat.one_mul,
        eq_comm]
      simp only [within, true_and, and_self]
    · rw [if_neg (by omega)]
      simp only [within, reduceCtorEq, false_and]

theorem Dice.shown_middle {sides first second third : UInt64}
    (room : sides.toNat < 2 ^ 63) (firstUpper : first ≤ sides)
    (secondUpper : second ≤ sides) (thirdUpper : third ≤ sides) :
    (Dice.middle (.numbered sides)).shown [first, second, third] =
      Int64.ofInt ((max (min first.toNat second.toNat)
        (min (max first.toNat second.toNat) third.toNat) : Nat) : Int) := by
  rw [UInt64.le_iff_toNat_le] at firstUpper secondUpper thirdUpper
  have word : ∀ number : Nat, number ≤ sides.toNat → isWord (number : Int) :=
    fun number upper => ⟨by omega, by omega⟩
  rw [← Int64.toInt_inj, toInt_ofInt_of_isWord (word _ (by omega))]
  simp only [Dice.shown, middleOf, Faces.shown, toInt_max, toInt_min,
    toInt_ofInt_of_isWord (word _ firstUpper),
    toInt_ofInt_of_isWord (word _ secondUpper),
    toInt_ofInt_of_isWord (word _ thirdUpper), Nat.cast_max, Nat.cast_min]

theorem drawVectors_three (sides : UInt64) :
    drawVectors (List.replicate 3 sides) =
      (Face.all sides).flatMap fun first => (Face.all sides).flatMap fun second =>
        (Face.all sides).map fun third => [first, second, third] := by
  simp only [List.replicate, drawVectors, List.map_eq_flatMap, List.flatMap_assoc]
  simp

theorem Dice.results_middle {sides : UInt64} (room : sides.toNat < 2 ^ 63) :
    (Dice.middle (.numbered sides)).results =
      ((Middle.shows sides.toNat).map fun face : Nat => (face : Int)).map
        Int64.ofInt := by
  have plan : (Dice.middle (.numbered sides)).plan = List.replicate 3 sides := rfl
  simp only [Dice.results, plan, drawVectors_three, Middle.shows, ← Face.toNat_all,
    List.flatMap_map, List.map_flatMap, List.map_map, Function.comp_def]
  apply List.flatMap_congr
  intro first firstMember
  apply List.flatMap_congr
  intro second secondMember
  apply List.map_congr_left
  intro third thirdMember
  exact Dice.shown_middle room (Face.mem_all_iff.mp firstMember).2
    (Face.mem_all_iff.mp secondMember).2 (Face.mem_all_iff.mp thirdMember).2

theorem Dice.mem_results_middle {sides : UInt64} (room : sides.toNat < 2 ^ 63)
    {result : Int64} :
    result ∈ (Dice.middle (.numbered sides)).results ↔
      1 ≤ result.toInt ∧ result.toInt ≤ sides.toNat := by
  rw [Dice.results_middle room]
  simp only [List.mem_map, Middle.mem_shows_iff]
  constructor
  · rintro ⟨_, ⟨face, bounds, rfl⟩, rfl⟩
    have word : isWord (face : Int) := ⟨by omega, by omega⟩
    rw [toInt_ofInt_of_isWord word]
    omega
  · intro ⟨lower, upper⟩
    refine ⟨_, ⟨result.toInt.toNat, ⟨by omega, by omega⟩, rfl⟩, ?_⟩
    rw [Int.toNat_of_nonneg (by omega), Int64.ofInt_toInt]

theorem Dice.length_results_middle (faces : Faces) :
    (Dice.middle faces).results.length = faces.outcomes.toNat ^ 3 := by
  have plan : (Dice.middle faces).plan = List.replicate 3 faces.outcomes := rfl
  rw [Dice.results, List.length_map, length_drawVectors, plan, List.map_replicate,
    List.prod_replicate]

/-- The middle one of three numbered dice has a distribution whenever it is sure
to be a signed word.  The total is found to be that of all throws. -/
theorem Distribution.middleOfDice_counts {sides : UInt64}
    (room : sides.toNat < 2 ^ 63) :
    ∃ distribution, Distribution.middleOfDice sides = .ok distribution ∧
      distribution.Counts 1 (Dice.middle (.numbered sides)).results := by
  have word : ∀ value ∈ (Middle.shows sides.toNat).map fun face : Nat => (face : Int),
      isWord value := by
    intro value member
    obtain ⟨face, faceMember, rfl⟩ := List.mem_map.mp member
    have bounds := Middle.mem_shows_iff.mp faceMember
    exact ⟨by omega, by omega⟩
  have counts : (Distribution.ofList
      ((List.range' 1 sides.toNat).map fun face =>
        (Int64.ofNat face, Middle.frequency sides.toNat face))).Counts 1
      (Dice.middle (.numbered sides)).results := by
    apply counts_of_frequency?
    intro query ways
    rw [frequency?_ofFaces room, Dice.results_middle room, Nat.one_mul,
      ← List.count_pos_iff, count_map_ofInt word]
    by_cases natural : ∃ face : Nat, query.toInt = face
    · obtain ⟨face, value⟩ := natural
      rw [value, List.count_map_of_injective _ _ Nat.cast_injective,
        List.count_pos_iff, Middle.mem_shows_iff, Int.toNat_natCast, ← and_assoc]
      norm_cast
      apply and_congr_right
      intro bounds
      rw [Middle.count_shows bounds.1 bounds.2]
    · have absent : query.toInt ∉ (Middle.shows sides.toNat).map
          fun face : Nat => (face : Int) := by
        intro member
        obtain ⟨face, _, value⟩ := List.mem_map.mp member
        exact natural ⟨face, value.symm⟩
      have negative : ¬ 1 ≤ query.toInt := fun lower =>
        natural (Int.eq_ofNat_of_zero_le (Int.le_trans (by decide) lower))
      simp [negative, List.count_eq_zero_of_not_mem absent]
  have total := counts.total
  rw [Dice.length_results_middle, Nat.one_mul] at total
  refine ⟨_, ?_, counts⟩
  rw [Distribution.middleOfDice, if_neg (Nat.not_le.mpr room)]
  exact if_pos total

/-- Moving outcomes without losing one, and giving each way a weight. -/
theorem Distribution.Counts.recentre {distribution : Distribution} {weight : Nat}
    {results : List Int64} (counts : distribution.Counts weight results)
    (offset reach : Int) (share : Nat)
    (near : ∀ result ∈ results,
      -reach ≤ result.toInt - offset ∧ result.toInt - offset ≤ reach)
    (word : ∀ result ∈ results, isWord (result.toInt - offset)) :
    (distribution.recentre offset reach share).Counts (weight * share)
      (results.map fun result => Int64.ofInt (result.toInt - offset)) := by
  let move : Int64 → Int64 := fun result => Int64.ofInt (result.toInt - offset)
  have distinct : ∀ left ∈ results, ∀ right ∈ results,
      move left = move right → left = right := by
    intro left leftMember right rightMember same
    have value : left.toInt - offset = (move right).toInt :=
      (ofInt_eq_iff (word left leftMember)).mp same
    rw [toInt_ofInt_of_isWord (word right rightMember)] at value
    exact Int64.toInt_inj.mp (by omega)
  have kept : distribution.recentre offset reach share =
      .ofList (distribution.entries.map fun entry =>
        (move entry.1, entry.2 * share)) := by
    rw [Distribution.recentre, ← List.filterMap_eq_map]
    apply congrArg
    apply List.filterMap_congr
    intro entry member
    exact if_pos (near _ (counts.mem_of_entry member))
  have outcomes : ((distribution.entries.map fun entry =>
      (move entry.1, entry.2 * share)).map Prod.fst) =
      distribution.outcomes.map move := by
    simp [Distribution.outcomes]
  have movedDistinct : (distribution.outcomes.map move).Nodup := by
    apply List.Nodup.map_on _ distribution.nodup_outcomes
    intro left leftMember right rightMember
    exact distinct left ((counts.outcomes left).mp leftMember) right
      ((counts.outcomes right).mp rightMember)
  rw [← outcomes] at movedDistinct
  apply Distribution.counts_of_frequency?
  intro query ways
  rw [kept, Distribution.frequency?_ofList movedDistinct]
  simp only [List.mem_map, Prod.exists, counts.mem_entries_iff, Prod.mk.injEq]
  constructor
  · rintro ⟨result, held, ⟨listed, counted⟩, moved, shared⟩
    refine ⟨⟨result, listed, moved⟩, ?_⟩
    rw [← moved, count_map_of_injOn distinct listed, ← shared, counted,
      Nat.mul_right_comm]
  · rintro ⟨⟨result, listed, moved⟩, counted⟩
    refine ⟨result, _, ⟨listed, rfl⟩, moved, ?_⟩
    rw [counted, ← moved]
    change _ = _ * (results.map move).count (move result)
    rw [count_map_of_injOn distinct listed, Nat.mul_right_comm]

theorem shown_sum_fudge (draws : List UInt64) :
    (draws.map Faces.fudge.shown).sum = faceSum draws - 2 * draws.length := by
  induction draws with
  | nil => rfl
  | cons face draws induction =>
      simp only [faceSum, List.map_cons, List.sum_cons, List.length_cons] at induction ⊢
      rw [induction, Faces.shown]
      push_cast
      ring

theorem Dice.results_sum_fudge {count : UInt64} (room : count.toNat < 2 ^ 32) :
    (Dice.sum count .fudge).results =
      (Dice.sum count (.numbered 3)).results.map fun result =>
        Int64.ofInt (result.toInt - 2 * count.toNat) := by
  rw [Dice.results_sum]
  simp only [Dice.results, Dice.plan, Dice.thrown, Dice.faces, Faces.outcomes,
    List.map_map]
  apply List.map_congr_left
  intro draws member
  have bounds := faceSum_bounds member
  rw [toNat_three] at bounds
  have length := length_of_mem_drawVectors member
  rw [List.length_replicate] at length
  have word : isWord (faceSum draws : Int) := ⟨by omega, by omega⟩
  simp only [Function.comp_apply, Dice.shown, shown_sum_fudge,
    toInt_ofInt_of_isWord word, length]

theorem Dice.results_middle_fudge :
    (Dice.middle .fudge).results =
      (Dice.middle (.numbered 3)).results.map fun result =>
        Int64.ofInt (result.toInt - 2) := by
  decide

theorem Distribution.sumOfFudge_counts {count : UInt64} (positive : 0 < count.toNat)
    (room : count.toNat < 2 ^ 32) :
    ∃ distribution, Distribution.sumOfFudge count = .ok distribution ∧
      distribution.Counts (2 ^ count.toNat) (Dice.sum count .fudge).results := by
  have fits : count.toNat * (3 : UInt64).toNat < 2 ^ 63 := by
    rw [toNat_three]
    omega
  obtain ⟨distribution, success, counts⟩ :=
    Distribution.sumOfDice_counts positive (by decide) fits
  have near : ∀ result ∈ (Dice.sum count (.numbered 3)).results,
      -(count.toNat : Int) ≤ result.toInt - 2 * count.toNat ∧
        result.toInt - 2 * count.toNat ≤ count.toNat := by
    intro result member
    have bounds := (Dice.mem_results_sum fits result).mp member
    rw [toNat_three] at bounds
    omega
  have word : ∀ result ∈ (Dice.sum count (.numbered 3)).results,
      isWord (result.toInt - 2 * count.toNat) := by
    intro result member
    have bounds := near result member
    exact ⟨by omega, by omega⟩
  refine ⟨distribution.recentre (2 * count.toNat) count.toNat
    (Fudge.facesPerValue ^ count.toNat), ?_, ?_⟩
  · rw [Distribution.sumOfFudge, if_neg (Nat.not_le.mpr room), success]
    rfl
  · rw [Dice.results_sum_fudge room, ← Nat.one_mul (2 ^ count.toNat)]
    exact counts.recentre _ _ _ near word

theorem Distribution.middleOfFudge_counts :
    ∃ distribution, Distribution.middleOfFudge = .ok distribution ∧
      distribution.Counts (2 ^ 3) (Dice.middle .fudge).results := by
  obtain ⟨distribution, success, counts⟩ :=
    @Distribution.middleOfDice_counts 3 (by decide)
  have near : ∀ result ∈ (Dice.middle (.numbered 3)).results,
      -1 ≤ result.toInt - 2 ∧ result.toInt - 2 ≤ 1 := by
    intro result member
    have bounds := (Dice.mem_results_middle (by decide)).mp member
    rw [toNat_three] at bounds
    omega
  have word : ∀ result ∈ (Dice.middle (.numbered 3)).results,
      isWord (result.toInt - 2) := by
    intro result member
    have bounds := near result member
    exact ⟨by omega, by omega⟩
  refine ⟨distribution.recentre 2 1 (Fudge.facesPerValue ^ 3), ?_, ?_⟩
  · rw [Distribution.middleOfFudge, success]
    rfl
  · rw [Dice.results_middle_fudge, ← Nat.one_mul (2 ^ 3)]
    exact counts.recentre _ _ _ near word

/-- Whether an exact computation for the dice stays within words. -/
def Dice.Fits (dice : Dice) : Prop :=
  match dice.faces with
  | .numbered _ => dice.extent < 2 ^ 63
  | .fudge => dice.thrown.toNat < 2 ^ 32

theorem Dice.extent_of_fits {dice : Dice} (fits : dice.Fits) :
    dice.extent < 2 ^ 63 := by
  rcases dice with ⟨count, sides | _⟩ | sides | _
  · exact fits
  · change count.toNat < 2 ^ 32 at fits
    simp only [Dice.extent, Faces.reach]
    omega
  · exact fits
  · decide

theorem Dice.count_positive {count : UInt64} {faces : Faces}
    (sound : (Dice.sum count faces).defect? = none) : 0 < count.toNat := by
  have nonzero : count ≠ 0 := by
    intro zero
    simp only [Dice.defect?, if_pos zero, reduceCtorEq] at sound
  exact UInt64.lt_iff_toNat_lt.mp (UInt64.pos_iff_ne_zero.mpr nonzero)

/-- Sound dice that fit have a distribution, and it counts what their draw
vectors show. -/
theorem Dice.soundDistribution_counts {dice : Dice} (sound : dice.defect? = none)
    (fits : dice.Fits) :
    ∃ distribution, dice.soundDistribution = .ok distribution ∧
      distribution.Counts (2 ^ dice.fudgeDice) dice.results := by
  rcases dice with ⟨count, sides | _⟩ | sides | _
  · have sided : 0 < sides := Dice.outcomes_positive sound
    exact Distribution.sumOfDice_counts (Dice.count_positive sound)
      (UInt64.lt_iff_toNat_lt.mp sided) fits
  · exact Distribution.sumOfFudge_counts (Dice.count_positive sound) fits
  · exact Distribution.middleOfDice_counts fits
  · exact Distribution.middleOfFudge_counts

/-- Sound dice that do not fit overflow. -/
theorem Dice.soundDistribution_overflow {dice : Dice}
    (wide : ¬ dice.Fits) : dice.soundDistribution = .error .overflow := by
  rcases dice with ⟨count, sides | _⟩ | sides | _
  · exact if_pos (Nat.not_lt.mp wide)
  · exact if_pos (Nat.not_lt.mp wide)
  · exact if_pos (Nat.not_lt.mp wide)
  · have narrow : (3 : UInt64).toNat < 2 ^ 32 := by decide
    exact (wide narrow).elim

/-- A distribution that is found for sound dice counts what their draw vectors show. -/
theorem Dice.counts_of_soundDistribution {dice : Dice} (sound : dice.defect? = none)
    {distribution : Distribution}
    (success : dice.soundDistribution = .ok distribution) :
    dice.Fits ∧ distribution.Counts (2 ^ dice.fudgeDice) dice.results := by
  have fits : dice.Fits := by
    by_contra wide
    rw [Dice.soundDistribution_overflow wide] at success
    contradiction
  obtain ⟨counted, sameSuccess, counts⟩ := Dice.soundDistribution_counts sound fits
  rw [success] at sameSuccess
  cases sameSuccess
  exact ⟨fits, counts⟩

end DiceOdds
