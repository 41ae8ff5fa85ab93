import DiceOdds.Distribution.WordSweep
import DiceOdds.Proofs.SweepCount

/-!
# No operation of a sweep fails

While dice are swept whose greatest sum is a signed word, every outcome, product and
difference on the way fits its word, and every quotient is exact.  So the sweep on
machine words goes through, and it carries the terms that the sweep on natural numbers
carries.
-/

namespace DiceOdds

/-- The sweep at the end of the round for `outcome`. -/
def Sweep.after (count sides outcome : Nat) : Sweep :=
  (List.range' count (outcome + 1 - count)).foldl (Sweep.advance count sides) .start

/-! ## Checked operations -/

theorem Checked.exists_signed (value : Int) (fits : isWord value) :
    ∃ word, Checked.signed value = some word ∧ word.toInt = value :=
  ⟨Int64.ofInt value, if_pos fits, toInt_ofInt_of_isWord fits⟩

theorem Checked.exists_unsigned (value : Int) (lower : 0 ≤ value) (upper : value < 2 ^ 64) :
    ∃ word, Checked.unsigned value = some word ∧ (word.toNat : Int) = value := by
  refine ⟨UInt64.ofNat value.toNat, if_pos ⟨lower, upper⟩, ?_⟩
  have fits : value.toNat < UInt64.size := by
    change value.toNat < 2 ^ 64
    omega
  rw [UInt64.toNat_ofNat_of_lt' fits, Int.toNat_of_nonneg lower]

theorem Checked.quotient_mul {divisor : Nat} (positive : 0 < divisor) (result : Nat) :
    Checked.quotient (result * divisor) divisor = some result := by
  rw [Checked.quotient, if_pos ⟨positive, Nat.dvd_mul_left divisor result⟩,
    Nat.mul_div_cancel result positive]

/-- An operation with a result goes on with it.  Operations are opened one at a time by
this lemma: opened all at once, their words would be computed. -/
theorem Checked.bind_eq {α β : Type} {operation : Option α} {result : α}
    (made : operation = some result) (next : α → Option β) :
    (operation >>= next) = next result := by
  rw [made]
  rfl

/-! ## Words of a sweep -/

namespace WordSweep

/-- The words belong to a sweep of at least two dice whose greatest sum is a signed word. -/
structure Suits (frame : WordSweep) (dice faces : Nat) : Prop where
  several : 2 ≤ dice
  sided : 0 < faces
  room : dice * faces < 2 ^ 63
  count : frame.count.toNat = dice
  others : frame.others.toNat = dice - 1
  sides : frame.sides.toInt = faces
  least : frame.least.toInt = dice
  middle : frame.middle.toInt = (dice + (dice * faces - dice) / 2 : Nat)
  greatest : frame.greatest.toInt = (dice * faces : Nat)

theorem exists_suits {count sides : UInt64} (several : 2 ≤ count.toNat)
    (sided : 0 < sides.toNat) (room : count.toNat * sides.toNat < 2 ^ 63) :
    ∃ frame, WordSweep.ofDice? count sides = some frame ∧
      frame.Suits count.toNat sides.toNat := by
  generalize diced : count.toNat = dice at several room ⊢
  generalize faced : sides.toNat = faces at sided room ⊢
  have reach : dice ≤ dice * faces := Nat.le_mul_of_pos_right dice sided
  have wide : faces ≤ dice * faces := Nat.le_mul_of_pos_left faces (by omega)
  generalize multiplied : dice * faces = product at room reach wide
  obtain ⟨least, leastMade, leastValue⟩ :=
    Checked.exists_signed dice ⟨by omega, by omega⟩
  obtain ⟨all, allMade, allValue⟩ :=
    Checked.exists_unsigned (dice * faces) (by omega) (by
      rw [← Int.natCast_mul, multiplied]
      omega)
  rw [← Int.natCast_mul, multiplied] at allValue
  obtain ⟨greatest, greatestMade, greatestValue⟩ :=
    Checked.exists_signed all.toNat ⟨by omega, by omega⟩
  obtain ⟨signedSides, sidesMade, sidesValue⟩ :=
    Checked.exists_signed faces ⟨by omega, by omega⟩
  obtain ⟨span, spanMade, spanValue⟩ :=
    Checked.exists_signed (greatest.toInt - least.toInt) ⟨by omega, by omega⟩
  have halved : span.toInt.tdiv 2 = span.toInt / 2 :=
    Int.tdiv_eq_ediv_of_nonneg (by omega)
  obtain ⟨middle, middleMade, middleValue⟩ :=
    Checked.exists_signed (least.toInt + span.toInt.tdiv 2) ⟨by omega, by omega⟩
  obtain ⟨others, othersMade, othersValue⟩ :=
    Checked.exists_unsigned (dice - 1) (by omega) (by omega)
  refine ⟨{ count, others, sides := signedSides, least, middle, greatest }, ?_, ?_⟩
  · rw [WordSweep.ofDice?, diced, faced, Checked.bind_eq leastMade,
      Checked.bind_eq allMade, Checked.bind_eq greatestMade, Checked.bind_eq sidesMade,
      Checked.bind_eq spanMade, Checked.bind_eq middleMade, Checked.bind_eq othersMade]
    rfl
  · exact
      { several, sided
        room := by omega
        count := diced
        others := by dsimp only; omega
        sides := sidesValue
        least := leastValue
        middle := by dsimp only; omega
        greatest := by dsimp only; omega }

variable {frame : WordSweep} {dice faces : Nat}

theorem Suits.upper? (suits : frame.Suits dice faces) {outcome : Int64}
    {reached index : Nat} (here : outcome.toInt = reached)
    (alive : dice + faces * index ≤ reached) :
    ∃ upper, frame.upper? outcome index = some upper ∧
      upper.toNat = reached - faces * index - 1 := by
  have several := suits.several
  have reachedWord : reached < 2 ^ 63 := by
    have := outcome.toInt_lt
    omega
  have indexBelow : index ≤ faces * index := Nat.le_mul_of_pos_left index suits.sided
  obtain ⟨place, placeMade, placeValue⟩ :=
    Checked.exists_signed index ⟨by omega, by omega⟩
  have product : frame.sides.toInt * place.toInt = (faces * index : Nat) := by
    rw [suits.sides, placeValue, Int.natCast_mul]
  obtain ⟨pushed, pushedMade, pushedValue⟩ :=
    Checked.exists_signed (frame.sides.toInt * place.toInt)
      (by rw [product]; exact ⟨by omega, by omega⟩)
  rw [product] at pushedValue
  obtain ⟨rest, restMade, restValue⟩ :=
    Checked.exists_signed (outcome.toInt - pushed.toInt) ⟨by omega, by omega⟩
  obtain ⟨before, beforeMade, beforeValue⟩ :=
    Checked.exists_signed (rest.toInt - 1) ⟨by omega, by omega⟩
  obtain ⟨upper, upperMade, upperValue⟩ :=
    Checked.exists_unsigned before.toInt (by omega) (by omega)
  refine ⟨upper, ?_, by omega⟩
  rw [WordSweep.upper?, Checked.bind_eq placeMade, Checked.bind_eq pushedMade,
    Checked.bind_eq restMade, Checked.bind_eq beforeMade, upperMade]

/-- The second binomial of a living term is carried along by an exact quotient. -/
theorem Suits.advanceTail? (suits : frame.Suits dice faces) {outcome : Int64}
    {before index : Nat} (here : outcome.toInt = (before + 1 : Nat))
    (alive : dice + faces * index ≤ before) :
    frame.advanceTail? outcome index
        ((before - faces * index - 1).choose (dice - 1)) =
      some (Sweep.advanceTail dice faces (before + 1) index
        ((before - faces * index - 1).choose (dice - 1))) := by
  have several := suits.several
  obtain ⟨upper, upperMade, upperValue⟩ := suits.upper? here (Nat.le_succ_of_le alive)
  obtain ⟨divisor, divisorMade, divisorValue⟩ :=
    Checked.exists_unsigned (upper.toNat - frame.others.toNat)
      (by rw [upperValue, suits.others]; omega)
      (by have := upper.toNat_lt; omega)
  rw [upperValue, suits.others] at divisorValue
  obtain ⟨lower, same⟩ : ∃ lower, before - faces * index = lower + 1 :=
    ⟨before - faces * index - 1, by omega⟩
  have upperSame : upper.toNat = lower + 1 := by omega
  have divisorSame : divisor.toNat = lower + 1 - (dice - 1) := by omega
  have next : before + 1 - faces * index - 1 = lower + 1 := by omega
  rw [Sweep.advanceTail_choose (by omega) alive, WordSweep.advanceTail?,
    Checked.bind_eq upperMade, Checked.bind_eq divisorMade, upperSame, divisorSame, same,
    Nat.add_sub_cancel, next, Nat.choose_mul_succ_eq]
  exact Checked.quotient_mul (by omega) _

/-- The first term of all has the first binomial it is given. -/
theorem advanceChoose?_zero (frame : WordSweep) (choose : Nat) :
    frame.advanceChoose? 0 choose = some choose := by
  obtain ⟨place, placeMade, placeValue⟩ :=
    Checked.exists_unsigned (0 : Nat) (by omega) (by omega)
  have zero : place = 0 := UInt64.toNat_inj.mp (Int.ofNat.inj placeValue)
  rw [WordSweep.advanceChoose?, Checked.bind_eq placeMade, if_pos zero]
  rfl

/-- The first binomial of a new term is found by an exact quotient. -/
theorem Suits.advanceChoose? (suits : frame.Suits dice faces) {index : Nat}
    (room : index < dice) :
    frame.advanceChoose? (index + 1) (dice.choose index) =
      some (Sweep.advanceChoose dice (index + 1) (dice.choose index)) := by
  have diceWord : dice < 2 ^ 64 := suits.count ▸ frame.count.toNat_lt
  obtain ⟨place, placeMade, placeValue⟩ :=
    Checked.exists_unsigned (index + 1 : Nat) (by omega) (by omega)
  obtain ⟨rest, restMade, restValue⟩ :=
    Checked.exists_unsigned (frame.count.toNat - place.toNat)
      (by rw [suits.count]; omega) (by rw [suits.count]; omega)
  rw [suits.count] at restValue
  obtain ⟨factor, factorMade, factorValue⟩ :=
    Checked.exists_unsigned (rest.toNat + 1) (by omega) (by omega)
  have positive : place ≠ 0 := by
    rintro rfl
    exact absurd placeValue (by simp; omega)
  have placeSame : place.toNat = index + 1 := by omega
  have factorSame : factor.toNat = dice - index := by omega
  rw [Sweep.advanceChoose_choose room, WordSweep.advanceChoose?,
    Checked.bind_eq placeMade, if_neg positive, Checked.bind_eq restMade,
    Checked.bind_eq factorMade, factorSame, placeSame, ← Nat.choose_succ_right_eq]
  exact Checked.quotient_mul (Nat.succ_pos index) _

/-- Terms are carried along together if each of them is. -/
theorem carry?_eq {outcome : Int64} {change : Nat → Nat → Nat} (first : Nat)
    (terms : List (Nat × Nat))
    (each : ∀ index (inside : index < terms.length),
      frame.advanceTail? outcome (index + first) terms[index].2 =
        some (change (index + first) terms[index].2)) :
    frame.carry? outcome first terms =
      some (terms.mapIdx fun index term => (term.1, change (index + first) term.2)) := by
  induction terms generalizing first with
  | nil => rfl
  | cons term terms induction =>
      have head := each 0 (Nat.succ_pos _)
      have tail := induction (first + 1) fun index inside => by
        have later := each (index + 1) (Nat.succ_lt_succ inside)
        simpa only [List.getElem_cons_succ, Nat.add_assoc, Nat.add_comm 1] using later
      rw [Nat.zero_add, List.getElem_cons_zero] at head
      rw [WordSweep.carry?, Checked.bind_eq head, Checked.bind_eq tail,
        List.mapIdx_cons]
      simp only [Nat.zero_add, Nat.add_assoc, Nat.add_comm 1]
      rfl

/-- All terms of a sweep that is ready for an outcome are carried along to it. -/
theorem Suits.carry? (suits : frame.Suits dice faces) {outcome : Int64} {reached : Nat}
    (here : outcome.toInt = reached) {sweep : Sweep}
    (ready : Sweep.Ready dice faces reached sweep) (least : dice ≤ reached) :
    frame.carry? outcome 0 sweep.terms =
      some (sweep.terms.mapIdx fun index term =>
        (term.1, Sweep.advanceTail dice faces reached index term.2)) := by
  have several := suits.several
  apply carry?_eq 0
  intro index inside
  rcases ready with ⟨_, rfl⟩ | ⟨above, invariant⟩
  · exact absurd inside (Nat.not_lt_zero index)
  · -- A term is carried along for the first time one outcome after it came alive.
    obtain ⟨before, rfl⟩ : ∃ before, reached = before + 1 := ⟨reached - 1, by omega⟩
    rw [Nat.add_sub_cancel] at invariant
    have within : index < (before - dice) / faces + 1 := by
      simpa [invariant.terms] using inside
    simp only [invariant.terms, List.getElem_map, List.getElem_range, Nat.add_zero]
    exact suits.advanceTail? here
      ((Sweep.lt_living_iff suits.sided (by omega)).mp within)

/-- The term that an outcome adds to a sweep gets its first binomial. -/
theorem Suits.choose? (suits : frame.Suits dice faces) {reached : Nat} {sweep : Sweep}
    (ready : Sweep.Ready dice faces reached sweep) (below : reached ≤ dice * faces) :
    frame.advanceChoose? sweep.terms.length sweep.choose =
      some (Sweep.advanceChoose dice sweep.terms.length sweep.choose) := by
  have several := suits.several
  rcases ready with ⟨_, rfl⟩ | ⟨above, invariant⟩
  · exact advanceChoose?_zero frame Sweep.start.choose
  · have alive : (reached - 1 - dice) / faces < dice :=
      Sweep.pushed_lt suits.sided (by omega) (by omega)
    rw [invariant.choose, invariant.terms, List.length_map, List.length_range]
    exact suits.advanceChoose? alive

/-- How far an outcome lies above the least one. -/
theorem Suits.risen (suits : frame.Suits dice faces) {outcome : Int64} {reached : Nat}
    (here : outcome.toInt = reached) (least : dice ≤ reached)
    (below : reached ≤ dice * faces) :
    ∃ risen, Checked.signed (outcome.toInt - frame.least.toInt) = some risen ∧
      risen.toInt = (reached - dice : Nat) := by
  have room := suits.room
  obtain ⟨risen, risenMade, risenValue⟩ :=
    Checked.exists_signed (outcome.toInt - frame.least.toInt)
      (by rw [here, suits.least]; exact ⟨by omega, by omega⟩)
  refine ⟨risen, risenMade, ?_⟩
  rw [risenValue, here, suits.least]
  omega

/-- A round of the sweep on words is the round on natural numbers. -/
theorem Suits.advance? (suits : frame.Suits dice faces) {outcome : Int64} {reached : Nat}
    (here : outcome.toInt = reached) {sweep : Sweep}
    (ready : Sweep.Ready dice faces reached sweep) (least : dice ≤ reached)
    (below : reached ≤ dice * faces) :
    frame.advance? sweep outcome = some (sweep.advance dice faces reached) := by
  obtain ⟨risen, risenMade, risenValue⟩ := suits.risen here least below
  have positive : frame.sides ≠ 0 := by
    intro zero
    have value := suits.sides
    have sided := suits.sided
    rw [zero, Int64.toInt_zero] at value
    omega
  have remainder : risen.toInt.tmod frame.sides.toInt = 0 ↔
      (reached - dice) % faces = 0 := by
    rw [risenValue, suits.sides, Int.tmod_eq_emod_of_nonneg (Int.natCast_nonneg _),
      ← Int.natCast_emod, Int.natCast_eq_zero]
  rw [WordSweep.advance?, Checked.bind_eq (suits.carry? here ready least),
    Checked.bind_eq risenMade, if_neg positive]
  by_cases another : (reached - dice) % faces = 0
  · rw [if_pos (remainder.mpr another), List.length_mapIdx,
      Checked.bind_eq (suits.choose? ready below)]
    simp only [Sweep.advance, if_pos another, List.length_mapIdx]
    rfl
  · rw [if_neg (mt remainder.mp another)]
    simp only [Sweep.advance, if_neg another]
    rfl

theorem Suits.opposite? (suits : frame.Suits dice faces) {outcome : Int64}
    {reached : Nat} (here : outcome.toInt = reached) (least : dice ≤ reached)
    (below : reached ≤ dice * faces) :
    frame.opposite? outcome = some (Int64.ofNat (Sweep.opposite dice faces reached)) := by
  have room := suits.room
  obtain ⟨risen, risenMade, risenValue⟩ := suits.risen here least below
  obtain ⟨opposite, oppositeMade, oppositeValue⟩ :=
    Checked.exists_signed (frame.greatest.toInt - risen.toInt)
      (by rw [suits.greatest]; exact ⟨by omega, by omega⟩)
  have fits : Sweep.opposite dice faces reached < 2 ^ 63 := by
    rw [Sweep.opposite]
    omega
  rw [WordSweep.opposite?, Checked.bind_eq risenMade, oppositeMade, Option.some.injEq,
    ← Int64.toInt_inj, oppositeValue, Int64.toInt_ofNat_of_lt fits, suits.greatest,
    risenValue, Sweep.opposite]
  omega

/-- A round goes through and puts the number of ways of its outcome into the
distribution twice. -/
theorem Suits.step? {sides : UInt64} (suits : frame.Suits dice sides.toNat)
    {outcome : Int64} {reached : Nat} (here : outcome.toInt = reached) {sweep : Sweep}
    (distribution : Distribution) (ready : Sweep.Ready dice sides.toNat reached sweep)
    (least : dice ≤ reached) (below : reached ≤ dice * sides.toNat) :
    frame.step? (sweep, distribution) outcome =
      some (sweep.advance dice sides.toNat reached,
        (distribution.put (Int64.ofNat (Sweep.opposite dice sides.toNat reached))
          (sumWays dice sides reached)).put outcome (sumWays dice sides reached)) := by
  have positive : 0 < dice := Nat.lt_of_lt_of_le Nat.zero_lt_two suits.several
  have advanced := ready.advance positive suits.sided (by omega)
  have ways := advanced.frequency? positive suits.sided least
  rw [WordSweep.step?, Checked.bind_eq (suits.advance? here ready least below),
    Checked.bind_eq ways, Checked.bind_eq (suits.opposite? here least below)]
  rfl

/-- Some rounds in a row, from a sweep that is ready for them: they go through on words,
they are the rounds on natural numbers, and they fill the same distribution. -/
theorem Suits.rounds {sides : UInt64} (suits : frame.Suits dice sides.toNat)
    (length reached : Nat) (sweep : Sweep) (distribution : Distribution)
    (ready : Sweep.Ready dice sides.toNat reached sweep) (least : dice ≤ reached)
    (below : reached + length ≤ dice * sides.toNat + 1) :
    ∃ full,
      ((List.range' reached length).map Int64.ofNat).foldlM frame.step?
          (sweep, distribution) =
        some ((List.range' reached length).foldl (Sweep.advance dice sides.toNat) sweep,
          full) ∧
      Sweep.fill dice sides.toNat (List.range' reached length) sweep distribution =
        .ok full ∧
      Sweep.Ready dice sides.toNat (reached + length)
        ((List.range' reached length).foldl (Sweep.advance dice sides.toNat) sweep) := by
  have several := suits.several
  have room := suits.room
  induction length generalizing reached sweep distribution with
  | zero => exact ⟨distribution, rfl, rfl, ready⟩
  | succ length induction =>
      have here : (Int64.ofNat reached).toInt = reached :=
        Int64.toInt_ofNat_of_lt (by omega)
      have advanced := ready.advance (by omega) suits.sided (by omega)
      have ways := advanced.frequency? (by omega) suits.sided least
      have stepped := suits.step? here distribution ready least (by omega)
      obtain ⟨full, onWords, onNumbers, readyThen⟩ :=
        induction (reached + 1) _ _ (.inr ⟨by omega, advanced⟩) (by omega) (by omega)
      refine ⟨full, ?_, ?_, ?_⟩
      · rw [List.range'_succ, List.map_cons, List.foldlM_cons, Checked.bind_eq stepped,
          onWords, List.foldl_cons]
      · rw [List.range'_succ, Sweep.fill, ways]
        exact onNumbers
      · rw [List.range'_succ, List.foldl_cons, Nat.add_comm length, ← Nat.add_assoc]
        exact readyThen

theorem Suits.through? {sides : UInt64} (suits : frame.Suits dice sides.toNat)
    {outcome : Int64} {reached : Nat} (here : outcome.toInt = reached)
    (least : dice ≤ reached) (below : reached ≤ dice * sides.toNat) :
    ∃ full,
      frame.through? outcome = some (Sweep.after dice sides.toNat reached, full) ∧
      Sweep.fill dice sides.toNat (List.range' dice (reached + 1 - dice)) .start .empty =
        .ok full ∧
      Sweep.At dice sides.toNat reached (Sweep.after dice sides.toNat reached) := by
  have outcomes : frame.outcomesTo outcome =
      (List.range' dice (reached + 1 - dice)).map Int64.ofNat := by
    have first : frame.least.toInt.toNat = dice := by
      rw [suits.least, Int.toNat_natCast]
    have length : (outcome.toInt - frame.least.toInt + 1).toNat = reached + 1 - dice := by
      rw [here, suits.least]
      omega
    rw [WordSweep.outcomesTo, first, length]
  obtain ⟨full, onWords, onNumbers, ready⟩ :=
    suits.rounds (reached + 1 - dice) dice .start .empty (.inl ⟨rfl, rfl⟩)
      (Nat.le_refl dice) (by omega)
  refine ⟨full, ?_, onNumbers, ?_⟩
  · rw [WordSweep.through?, outcomes, onWords, Sweep.after]
  · rcases ready with ⟨same, _⟩ | ⟨_, invariant⟩
    · omega
    · have last : dice + (reached + 1 - dice) - 1 = reached := by omega
      rwa [last] at invariant

end WordSweep

/-- A sweep of at least two dice whose greatest sum is a signed word meets no overflow, no
difference below zero and no quotient with a rest: every round up to the middle outcome
goes through on machine words.  It ends in the binomials of the alternating sum, and the
last round leaves the distribution of the dice. -/
theorem WordSweep.every_round_exact {count sides : UInt64} (several : 2 ≤ count.toNat)
    (sided : 0 < sides.toNat) (room : count.toNat * sides.toNat < 2 ^ 63) :
    ∃ frame, WordSweep.ofDice? count sides = some frame ∧
      frame.least.toInt = count.toNat ∧
      frame.middle.toInt =
        (count.toNat + (count.toNat * sides.toNat - count.toNat) / 2 : Nat) ∧
      frame.greatest.toInt = (count.toNat * sides.toNat : Nat) ∧
      (∀ (outcome : Int64) (reached : Nat), outcome.toInt = reached →
        frame.least ≤ outcome → outcome ≤ frame.middle →
        ∃ sweep distribution,
          frame.through? outcome = some (sweep, distribution) ∧
          sweep = Sweep.after count.toNat sides.toNat reached ∧
          sweep.terms.length = (reached - count.toNat) / sides.toNat + 1 ∧
          (∀ index (inside : index < sweep.terms.length),
            count.toNat + sides.toNat * index ≤ reached ∧
            sweep.terms[index] = (count.toNat.choose index,
              (reached - sides.toNat * index - 1).choose (count.toNat - 1))) ∧
          (Sweep.signedSums sweep.terms).2 ≤ (Sweep.signedSums sweep.terms).1) ∧
      ∃ sweep distribution,
        frame.through? frame.middle = some (sweep, distribution) ∧
        Distribution.sumOfDice count sides = .ok distribution := by
  obtain ⟨frame, made, suits⟩ := WordSweep.exists_suits several sided room
  have reach : count.toNat ≤ count.toNat * sides.toNat :=
    Nat.le_mul_of_pos_right _ sided
  refine ⟨frame, made, suits.least, suits.middle, suits.greatest, ?_, ?_⟩
  · intro outcome reached here lower upper
    rw [Int64.le_iff_toInt_le, here] at lower upper
    rw [suits.least] at lower
    rw [suits.middle] at upper
    have least : count.toNat ≤ reached := by omega
    obtain ⟨full, through, _, invariant⟩ := suits.through? here least (by omega)
    have length : (Sweep.after count.toNat sides.toNat reached).terms.length =
        (reached - count.toNat) / sides.toNat + 1 := by
      rw [invariant.terms, List.length_map, List.length_range]
    have sums := invariant.signedSums_eq (by omega) sided least
    refine ⟨_, full, through, rfl, length, ?_, Nat.le.intro sums.symm⟩
    intro index inside
    constructor
    · exact (Sweep.lt_living_iff sided least).mp (length ▸ inside)
    · simp only [invariant.terms, List.getElem_map, List.getElem_range]
  · obtain ⟨full, through, filled, _⟩ := suits.through? suits.middle (by omega) (by omega)
    refine ⟨_, full, through, ?_⟩
    have rounds : count.toNat + (count.toNat * sides.toNat - count.toNat) / 2 + 1 -
        count.toNat = (count.toNat * sides.toNat - count.toNat) / 2 + 1 := by omega
    rw [rounds] at filled
    have notSingle : count ≠ 1 := by
      rintro rfl
      exact absurd several (by decide)
    rw [Distribution.sumOfDice, if_neg (Nat.not_le.mpr room), if_neg notSingle,
      Sweep.lowerHalf, filled]

theorem three_dice_swept_on_words :
    2 ≤ (3 : UInt64).toNat ∧ 0 < (6 : UInt64).toNat ∧
      (3 : UInt64).toNat * (6 : UInt64).toNat < 2 ^ 63 ∧
      ∃ frame, WordSweep.ofDice? 3 6 = some frame ∧ frame.middle.toInt = 10 ∧
        ∃ sweep distribution, frame.through? 10 = some (sweep, distribution) ∧
          sweep.terms = [(1, 36), (3, 3)] := by
  have several : 2 ≤ (3 : UInt64).toNat := by decide
  have sided : 0 < (6 : UInt64).toNat := by decide
  have room : (3 : UInt64).toNat * (6 : UInt64).toNat < 2 ^ 63 := by decide
  obtain ⟨frame, made, least, middle, _, rounds, _⟩ :=
    WordSweep.every_round_exact several sided room
  have lower : frame.least ≤ 10 := Int64.le_iff_toInt_le.mpr (by rw [least]; decide)
  have upper : 10 ≤ frame.middle := Int64.le_iff_toInt_le.mpr (by rw [middle]; decide)
  obtain ⟨sweep, distribution, through, swept, _⟩ := rounds 10 10 (by decide) lower upper
  have reached : Sweep.after 3 6 10 = { terms := [(1, 36), (3, 3)], choose := 3 } := by
    decide
  refine ⟨several, sided, room, frame, made, middle, sweep, distribution, through, ?_⟩
  rw [swept]
  exact congrArg Sweep.terms reached

end DiceOdds
