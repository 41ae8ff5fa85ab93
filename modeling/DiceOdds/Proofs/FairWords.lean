import DiceOdds.Proofs.DrawVectors
import DiceOdds.Random.ChaCha
import Mathlib.Algebra.Order.Floor.Div
import Mathlib.Data.FinEnum
import Mathlib.Data.Set.Card
import Mathlib.Data.Set.Finite.List
import Mathlib.Order.Interval.Finset.Nat

/-!
# Fair words

The words that show a face of a die are those whose product with the sides falls into a
window as wide as the zone, and the zone is the sides times a power of two, so every
face is shown by that power of two.  Half of all words are used at least.  Dice that take
their words from a tape are as fair: the tapes of one length that answer a plan with some
draws are as many for every draw vector of the plan.
-/

namespace DiceOdds

/-- The multiples of a number in a window of `count` times its width are `count` in a
row. -/
theorem mul_mem_window_iff {factor : Nat} (positive : 0 < factor)
    (start count value : Nat) :
    start ≤ factor * value ∧ factor * value < start + factor * count ↔
      start ⌈/⌉ factor ≤ value ∧ value < start ⌈/⌉ factor + count := by
  have least (value : Nat) : start ⌈/⌉ factor ≤ value ↔ start ≤ factor * value :=
    ceilDiv_le_iff_le_mul positive
  have beyond : start ⌈/⌉ factor + count ≤ value ↔
      start + factor * count ≤ factor * value := by
    constructor
    · intro far
      calc
        start + factor * count ≤ factor * (value - count) + factor * count :=
          Nat.add_le_add_right ((least _).mp (by omega)) _
        _ = factor * value := by rw [← Nat.mul_add, Nat.sub_add_cancel (by omega)]
    · intro far
      have room : count ≤ value :=
        Nat.le_of_mul_le_mul_left (Nat.le_of_add_left_le far) positive
      have rest : start ≤ factor * (value - count) := by
        rw [Nat.mul_sub]
        omega
      have reached := (least _).mpr rest
      omega
  rw [least]
  omega

namespace Word

section Shares

variable {sides : UInt64}

/-- The sides times the words for each face fill half of all words at least. -/
theorem sides_mul_pow_bounds (positive : 0 < sides) :
    2 ^ 63 ≤ sides.toNat * 2 ^ leadingZeros sides ∧
      sides.toNat * 2 ^ leadingZeros sides < 2 ^ 64 := by
  have positive' : sides.toNat ≠ 0 := (UInt64.lt_iff_toNat_lt.mp positive).ne'
  have place : sides.toNat.log2 ≤ 63 :=
    Nat.le_of_lt_succ ((Nat.log2_lt positive').mpr sides.toNat_lt)
  have least := Nat.log2_self_le positive'
  have below := Nat.lt_log2_self (n := sides.toNat)
  have lower : 2 ^ 63 = 2 ^ sides.toNat.log2 * 2 ^ (63 - sides.toNat.log2) := by
    rw [← Nat.pow_add, Nat.add_sub_cancel' place]
  have upper : 2 ^ 64 = 2 ^ (sides.toNat.log2 + 1) * 2 ^ (63 - sides.toNat.log2) := by
    rw [← Nat.pow_add]
    congr 1
    omega
  rw [lower, upper]
  exact ⟨Nat.mul_le_mul_right _ least,
    Nat.mul_lt_mul_of_pos_right below (Nat.two_pow_pos _)⟩

theorem isUsed_iff (positive : 0 < sides) {word : UInt64} :
    isUsed sides word ↔
      word.toNat * sides.toNat % 2 ^ 64 < sides.toNat * 2 ^ leadingZeros sides := by
  obtain ⟨wide, _⟩ := sides_mul_pow_bounds positive
  rw [isUsed, decide_eq_true_iff, zone]
  change _ ≤ sides.toNat * 2 ^ leadingZeros sides - 1 ↔ _
  omega

/-- A face is one more than the high half of the product. -/
theorem toNat_face (positive : 0 < sides) (word : UInt64) :
    (face sides positive word).val.toNat = 1 + word.toNat * sides.toNat / 2 ^ 64 := by
  have below : word.toNat * sides.toNat < 2 ^ 64 * sides.toNat :=
    Nat.mul_lt_mul_of_pos_right word.toNat_lt (UInt64.lt_iff_toNat_lt.mp positive)
  have high := Nat.div_lt_of_lt_mul below
  exact UInt64.toNat_ofNat_of_lt' (Nat.lt_of_le_of_lt (by omega) sides.toNat_lt)

/-- A word is used and shows a face if its product falls into the window of that face. -/
theorem isUsed_and_face_iff (positive : 0 < sides) {shown word : UInt64}
    (lower : 1 ≤ shown) :
    (isUsed sides word ∧ (face sides positive word).val = shown) ↔
      (shown.toNat - 1) * 2 ^ 64 ≤ sides.toNat * word.toNat ∧
        sides.toNat * word.toNat <
          (shown.toNat - 1) * 2 ^ 64 + sides.toNat * 2 ^ leadingZeros sides := by
  obtain ⟨_, narrow⟩ := sides_mul_pow_bounds positive
  have lower' : 1 ≤ shown.toNat := UInt64.le_iff_toNat_le.mp lower
  rw [isUsed_iff positive, ← UInt64.toNat_inj, toNat_face, Nat.mul_comm word.toNat]
  omega

/-- Equally many words show each face. -/
theorem ncard_face (positive : 0 < sides) {shown : UInt64}
    (suits : 1 ≤ shown ∧ shown ≤ sides) :
    {word | isUsed sides word ∧ (face sides positive word).val = shown}.ncard =
      2 ^ leadingZeros sides := by
  have positive' : 0 < sides.toNat := UInt64.lt_iff_toNat_lt.mp positive
  have upper : shown.toNat ≤ sides.toNat := UInt64.le_iff_toNat_le.mp suits.2
  have lower : 1 ≤ shown.toNat := UInt64.le_iff_toNat_le.mp suits.1
  obtain ⟨_, narrow⟩ := sides_mul_pow_bounds positive
  have window := mul_mem_window_iff positive' ((shown.toNat - 1) * 2 ^ 64)
    (2 ^ leadingZeros sides)
  -- The window ends before the first product that no word reaches.
  have inside : (shown.toNat - 1) * 2 ^ 64 + sides.toNat * 2 ^ leadingZeros sides ≤
      sides.toNat * 2 ^ 64 := by
    omega
  have numbers : UInt64.toNat ''
      {word | isUsed sides word ∧ (face sides positive word).val = shown} =
      Finset.Ico ((shown.toNat - 1) * 2 ^ 64 ⌈/⌉ sides.toNat)
        ((shown.toNat - 1) * 2 ^ 64 ⌈/⌉ sides.toNat + 2 ^ leadingZeros sides) := by
    ext value
    simp only [Set.mem_image, Set.mem_ofPred_eq, isUsed_and_face_iff positive suits.1,
      Finset.coe_Ico, Set.mem_Ico]
    rw [← window]
    constructor
    · rintro ⟨word, product, rfl⟩
      exact product
    · intro product
      have fits : value < 2 ^ 64 :=
        Nat.lt_of_mul_lt_mul_left (product.2.trans_le inside)
      have toNat : (UInt64.ofNat value).toNat = value := UInt64.toNat_ofNat_of_lt' fits
      exact ⟨UInt64.ofNat value, by rwa [toNat], toNat⟩
  have injective : Function.Injective UInt64.toNat := fun _ _ => UInt64.toNat_inj.mp
  rw [← Set.ncard_image_of_injective _ injective, numbers, Set.ncard_coe_finset,
    Nat.card_Ico, Nat.add_sub_cancel_left]

/-- The words of all faces together. -/
theorem ncard_isUsed (positive : 0 < sides) :
    {word | isUsed sides word}.ncard = sides.toNat * 2 ^ leadingZeros sides := by
  classical
  have finite : {word | isUsed sides word}.Finite := Set.toFinite _
  have shows : Set.MapsTo (fun word => (face sides positive word).val) finite.toFinset
      (Face.all sides).toFinset := by
    intro word _
    exact List.mem_toFinset.mpr (Face.mem_all_iff.mpr (face sides positive word).property)
  have fibre : ∀ shown ∈ (Face.all sides).toFinset,
      (finite.toFinset.filter fun word =>
        (face sides positive word).val = shown).card = 2 ^ leadingZeros sides := by
    intro shown member
    rw [← ncard_face positive (Face.mem_all_iff.mp (List.mem_toFinset.mp member)),
      ← Set.ncard_coe_finset]
    congr 1
    ext word
    simp
  rw [Set.ncard_eq_toFinset_card _ finite, Finset.card_eq_sum_card_fiberwise shows,
    Finset.sum_congr rfl fibre, Finset.sum_const,
    List.toFinset_card_of_nodup (Face.nodup_all sides), Face.length_all, smul_eq_mul]

end Shares

/-! ## Tapes -/

/-- The first used word on a tape shows a face; the words behind it are left. -/
inductive Shows (sides face : UInt64) : List UInt64 → List UInt64 → Prop where
  | used {word : UInt64} {tape : List UInt64} (positive : 0 < sides) :
      isUsed sides word → (Word.face sides positive word).val = face →
      Shows sides face (word :: tape) tape
  | refused {word : UInt64} {tape rest : List UInt64} :
      ¬ isUsed sides word → Shows sides face tape rest →
      Shows sides face (word :: tape) rest

/-- The dice of a plan take their words from a tape, one die after the other, and show
the draws. -/
inductive Answers : List UInt64 → List UInt64 → List UInt64 → Prop where
  | done {tape : List UInt64} : Answers [] tape []
  | die {sides face : UInt64} {plan tape rest draws : List UInt64} :
      Shows sides face tape rest → Answers plan rest draws →
      Answers (sides :: plan) tape (face :: draws)

section Sources

variable {σ : Type} [WordSource σ]

/-- The words that a source yields next. -/
def upcoming : Nat → σ → List UInt64
  | 0, _ => []
  | length + 1, source =>
      (WordSource.next source).1 :: upcoming length (WordSource.next source).2

/-- The attempts that a source is worth stay the same. -/
def Steady (σ : Type) [WordSource σ] : Prop :=
  ∀ source : σ, WordSource.period (WordSource.next source).2 = WordSource.period source

theorem steady_cycle : Steady Cycle := by
  intro cycle
  change (Cycle.next cycle).2.rest.length + 1 = cycle.rest.length + 1
  unfold Cycle.next
  split <;> rfl

theorem steady_chaCha : Steady ChaCha :=
  fun _ => rfl

/-- A source draws the face that its words show, and has the words behind it left. -/
theorem Shows.draw (steady : Steady σ) {sides face : UInt64} {tape rest : List UInt64}
    (shows : Shows sides face tape rest) (positive : 0 < sides)
    {length attempts : Nat} {source : σ} (words : tape = upcoming length source)
    (enough : length ≤ attempts) :
    (Word.draw sides positive attempts source).1.val = face ∧
      ∃ left, left ≤ length ∧
        rest = upcoming left (Word.draw sides positive attempts source).2 ∧
        WordSource.period (Word.draw sides positive attempts source).2 =
          WordSource.period source := by
  -- The attempts run down with every refused word, while the period stays.
  induction shows generalizing length attempts source with
  | used _ isUsed shown =>
      cases length with
      | zero => cases words
      | succ length =>
          obtain ⟨attempts, rfl⟩ := Nat.exists_eq_add_of_le' enough
          obtain ⟨rfl, rfl⟩ := List.cons.inj words
          rw [Nat.add_succ, Word.draw]
          dsimp only
          rw [if_pos isUsed]
          exact ⟨shown, length, Nat.le_succ length, rfl, steady source⟩
  | refused refused _ induction =>
      cases length with
      | zero => cases words
      | succ length =>
          obtain ⟨attempts, rfl⟩ := Nat.exists_eq_add_of_le' enough
          obtain ⟨rfl, later⟩ := List.cons.inj words
          rw [Nat.add_succ, Word.draw]
          dsimp only
          rw [if_neg refused]
          obtain ⟨shown, left, fewer, rest, period⟩ :=
            induction later (Nat.le_add_left length attempts)
          exact ⟨shown, left, fewer.trans (Nat.le_succ length), rest,
            period.trans (steady source)⟩

theorem Shows.positive {sides face : UInt64} {tape rest : List UInt64}
    (shows : Shows sides face tape rest) : 0 < sides := by
  induction shows with
  | used positive _ _ => exact positive
  | refused _ _ positive => exact positive

/-- A source of words answers a plan as its words do. -/
theorem Answers.answers (steady : Steady σ) {plan tape draws : List UInt64}
    (answers : Answers plan tape draws) {length : Nat} {source : σ}
    (words : tape = upcoming length source)
    (enough : length ≤ WordSource.period source) :
    (Roller.answers plan source).1 = draws := by
  induction answers generalizing length source with
  | done => rfl
  | die shows _ induction =>
      obtain ⟨shown, left, fewer, rest, period⟩ :=
        shows.draw steady shows.positive words enough
      rw [Roller.answers_cons shows.positive]
      exact congrArg₂ List.cons shown
        (induction rest ((fewer.trans enough).trans_eq period.symm))

end Sources

section Counting

variable {plan draws : List UInt64} {sides face : UInt64}

/-- The tapes of one length that answer a plan with some draws. -/
def tapes (plan draws : List UInt64) (length : Nat) : Set (List UInt64) :=
  {tape | tape.length = length ∧ Answers plan tape draws}

/-- How many tapes of one length answer a plan with one of its draw vectors: the first
word is refused and the others answer, or it shows the first draw and the others answer
the rest. -/
def tapeCount : List UInt64 → Nat → Nat
  | [], length => (2 ^ 64) ^ length
  | _ :: _, 0 => 0
  | sides :: plan, length + 1 =>
      (2 ^ 64 - sides.toNat * 2 ^ leadingZeros sides) * tapeCount (sides :: plan) length +
        2 ^ leadingZeros sides * tapeCount plan length

theorem tapeCount_positive {length : Nat} (enough : plan.length ≤ length) :
    0 < tapeCount plan length := by
  induction length generalizing plan with
  | zero =>
      obtain rfl := List.length_eq_zero_iff.mp (Nat.le_zero.mp enough)
      exact Nat.one_pos
  | succ length induction =>
      cases plan with
      | nil => exact Nat.pow_pos (by decide)
      | cons sides plan =>
          have later := induction (Nat.le_of_succ_le_succ enough)
          have first := Nat.mul_pos (Nat.two_pow_pos (leadingZeros sides)) later
          rw [tapeCount]
          omega

theorem ncard_words : (Set.univ : Set UInt64).ncard = 2 ^ 64 := by
  rw [Set.ncard_univ, Nat.card_eq_fintype_card, ← FinEnum.card_eq_fintypeCard]
  rfl

theorem ncard_refused (positive : 0 < sides) :
    {word | ¬ isUsed sides word}.ncard =
      2 ^ 64 - sides.toNat * 2 ^ leadingZeros sides := by
  have parted := Set.ncard_add_ncard_compl {word | isUsed sides word}
  rw [ncard_isUsed positive, ← Set.ncard_univ, ncard_words] at parted
  change Set.ncard {word | isUsed sides word}ᶜ = _
  omega

theorem ncard_cons (words : Set UInt64) (later : Set (List UInt64)) :
    (Set.image2 List.cons words later).ncard = words.ncard * later.ncard := by
  have injective : Function.Injective (Function.uncurry (List.cons (α := UInt64))) := by
    rintro ⟨word, tape⟩ ⟨word', tape'⟩ same
    exact Prod.ext (List.cons.inj same).1 (List.cons.inj same).2
  rw [← Set.image_uncurry_prod, Set.ncard_image_of_injective _ injective, Set.ncard_prod]

theorem finite_tapes (plan draws : List UInt64) (length : Nat) :
    (tapes plan draws length).Finite :=
  (List.finite_length_eq UInt64 length).subset fun _ member => member.1

/-- Tapes with one more word, split behind this word. -/
theorem mem_image2_cons {words : Set UInt64} {later : Set (List UInt64)}
    {tape : List UInt64} :
    tape ∈ Set.image2 List.cons words later ↔
      ∃ word rest, tape = word :: rest ∧ word ∈ words ∧ rest ∈ later := by
  rw [Set.mem_image2]
  constructor
  · rintro ⟨word, used, rest, member, rfl⟩
    exact ⟨word, rest, rfl, used, member⟩
  · rintro ⟨word, rest, rfl, used, member⟩
    exact ⟨word, used, rest, member, rfl⟩

theorem answers_cons_iff (positive : 0 < sides) {word : UInt64} {tape : List UInt64} :
    Answers (sides :: plan) (word :: tape) (face :: draws) ↔
      ¬ isUsed sides word ∧ Answers (sides :: plan) tape (face :: draws) ∨
        (isUsed sides word ∧ (Word.face sides positive word).val = face) ∧
          Answers plan tape draws := by
  constructor
  · rintro (_ | ⟨shows, answers⟩)
    cases shows with
    | used _ isUsed shown => exact .inr ⟨⟨isUsed, shown⟩, answers⟩
    | refused refused shows => exact .inl ⟨refused, .die shows answers⟩
  · rintro (⟨refused, answers⟩ | ⟨⟨isUsed, shown⟩, answers⟩)
    · cases answers with
      | die shows answers => exact .die (.refused refused shows) answers
    · exact .die (.used positive isUsed shown) answers

theorem tapes_nil_succ (length : Nat) :
    tapes [] [] (length + 1) = Set.image2 List.cons Set.univ (tapes [] [] length) := by
  ext tape
  rw [mem_image2_cons]
  constructor
  · rintro ⟨long, _⟩
    obtain ⟨word, rest, rfl⟩ := List.exists_cons_of_length_eq_add_one long
    exact ⟨word, rest, rfl, trivial, Nat.succ.inj long, .done⟩
  · rintro ⟨word, rest, rfl, _, long, _⟩
    exact ⟨congrArg Nat.succ long, .done⟩

theorem tapes_cons_succ (positive : 0 < sides) (length : Nat) :
    tapes (sides :: plan) (face :: draws) (length + 1) =
      Set.image2 List.cons {word | ¬ isUsed sides word}
          (tapes (sides :: plan) (face :: draws) length) ∪
        Set.image2 List.cons
          {word | isUsed sides word ∧ (Word.face sides positive word).val = face}
          (tapes plan draws length) := by
  ext tape
  rw [Set.mem_union, mem_image2_cons, mem_image2_cons]
  constructor
  · rintro ⟨long, answers⟩
    obtain ⟨word, rest, rfl⟩ := List.exists_cons_of_length_eq_add_one long
    rcases (answers_cons_iff positive).mp answers with ⟨refused, answers⟩ | ⟨shown, answers⟩
    · exact .inl ⟨word, rest, rfl, refused, Nat.succ.inj long, answers⟩
    · exact .inr ⟨word, rest, rfl, shown, Nat.succ.inj long, answers⟩
  · rintro (⟨word, rest, rfl, refused, long, answers⟩ | ⟨word, rest, rfl, shown, long, answers⟩)
    · exact ⟨congrArg Nat.succ long, (answers_cons_iff positive).mpr (.inl ⟨refused, answers⟩)⟩
    · exact ⟨congrArg Nat.succ long, (answers_cons_iff positive).mpr (.inr ⟨shown, answers⟩)⟩

/-- A first word is not both refused and used. -/
theorem not_mem_shown_of_refused (positive : 0 < sides)
    {refusedLater shownLater : Set (List UInt64)} {tape : List UInt64}
    (refused : tape ∈ Set.image2 List.cons {word | ¬ isUsed sides word} refusedLater) :
    tape ∉ Set.image2 List.cons
      {word | isUsed sides word ∧ (Word.face sides positive word).val = face}
      shownLater := by
  intro shown
  obtain ⟨word, rest, rfl, refused, _⟩ := mem_image2_cons.mp refused
  obtain ⟨word', rest', same, shown, _⟩ := mem_image2_cons.mp shown
  obtain ⟨rfl, rfl⟩ := List.cons.inj same
  exact refused shown.1

/-- For every draw vector of a plan there are equally many tapes. -/
theorem ncard_tapes (member : draws ∈ drawVectors plan) (length : Nat) :
    (tapes plan draws length).ncard = tapeCount plan length := by
  rw [mem_drawVectors_iff] at member
  -- By the first word of the tape, so the plan may stay while the length goes down.
  induction length generalizing plan draws with
  | zero =>
      cases member with
      | nil =>
          have single : tapes [] [] 0 = {[]} := by
            ext tape
            refine ⟨fun empty => List.length_eq_zero_iff.mp empty.1, ?_⟩
            rintro rfl
            exact ⟨rfl, .done⟩
          rw [single, Set.ncard_singleton]
          rfl
      | @cons face sides draws plan suits later =>
          have none : tapes (sides :: plan) (face :: draws) 0 = ∅ := by
            ext tape
            refine iff_of_false ?_ (Set.notMem_empty tape)
            rintro ⟨empty, answers⟩
            obtain rfl := List.length_eq_zero_iff.mp empty
            rcases answers with _ | ⟨shows, _⟩
            cases shows
          rw [none, Set.ncard_empty]
          rfl
  | succ length induction =>
      cases member with
      | nil =>
          rw [tapes_nil_succ, ncard_cons, ncard_words, induction .nil, tapeCount, tapeCount]
          exact Nat.pow_succ'.symm
      | @cons face sides draws plan suits later =>
          have positive := Face.sides_positive suits
          rw [tapes_cons_succ positive,
            Set.ncard_union_eq
              (Set.disjoint_left.mpr fun _ => not_mem_shown_of_refused positive)
              (Set.Finite.image2 _ (Set.toFinite _) (finite_tapes _ _ _))
              (Set.Finite.image2 _ (Set.toFinite _) (finite_tapes _ _ _)),
            ncard_cons, ncard_cons, ncard_refused positive, ncard_face positive suits,
            induction (.cons suits later), induction later, tapeCount]

end Counting

/-- For every number of sides, each used word shows a face, each face is shown by equally
many of all words, and half of all words are used at least.  So the dice of a plan show
each of its draw vectors on equally many tapes of any length, and every source of words
draws what its words show. -/
theorem draws_equally_likely (sides : UInt64) (positive : 0 < sides) :
    ((∀ word, isUsed sides word →
        (face sides positive word).val.toNat = 1 + word.toNat * sides.toNat / 2 ^ 64 ∧
          1 ≤ (face sides positive word).val.toNat ∧
          (face sides positive word).val.toNat ≤ sides.toNat) ∧
      (∀ shown : UInt64, 1 ≤ shown ∧ shown ≤ sides →
        {word | isUsed sides word ∧ (face sides positive word).val = shown}.ncard =
          2 ^ leadingZeros sides) ∧
      2 ^ 64 ≤ 2 * {word | isUsed sides word}.ncard) ∧
    (∀ plan : List UInt64, ∀ length, ∃ count,
      (plan.length ≤ length → 0 < count) ∧
      ∀ draws ∈ drawVectors plan,
        {tape | tape.length = length ∧ Answers plan tape draws}.ncard = count) ∧
    ∀ (σ : Type) [WordSource σ], Steady σ → ∀ (source : σ) (length : Nat),
      length ≤ WordSource.period source → ∀ plan draws,
        Answers plan (upcoming length source) draws →
        (Roller.answers plan source).1 = draws := by
  refine ⟨⟨fun word _ => ?_, fun shown suits => ncard_face positive suits, ?_⟩, ?_, ?_⟩
  · exact ⟨toNat_face positive word, Face.suits_iff.mp (face sides positive word).property⟩
  · rw [ncard_isUsed positive]
    obtain ⟨half, _⟩ := sides_mul_pow_bounds positive
    omega
  · exact fun plan length =>
      ⟨tapeCount plan length, tapeCount_positive, fun draws member => ncard_tapes member length⟩
  · intro σ _ steady source length enough plan draws answers
    exact answers.answers steady rfl enough

/-- A word refused by the die with three sides, and one used by it and by the next die. -/
theorem refused_word_passed_over :
    (0 : UInt64) < 3 ∧ (2 : UInt64) ≤ 3 ∧
    {word | isUsed 3 word ∧ (face 3 (by decide) word).val = 2}.ncard = 2 ^ 62 ∧
    2 ^ 64 ≤ 2 * {word | isUsed 3 word}.ncard ∧
    (∃ count, 0 < count ∧
      {tape | tape.length = 3 ∧ Answers [3, 6] tape [1, 6]}.ncard = count ∧
      {tape | tape.length = 3 ∧ Answers [3, 6] tape [3, 1]}.ncard = count) ∧
    Steady ChaCha ∧
    (Roller.answers [3, 6]
      (Cycle.ofWords 0x5555555555555555 [0, 0xF000000000000000])).1 = [1, 6] := by
  have fair := draws_equally_likely 3 (by decide)
  obtain ⟨count, positive, equal⟩ := fair.2.1 [3, 6] 3
  refine ⟨by decide, by decide, fair.1.2.1 2 (by decide), fair.1.2.2,
    ⟨count, positive (by decide), equal _ ?_, equal _ ?_⟩, steady_chaCha, ?_⟩
  · rw [mem_drawVectors_iff]
    decide
  · rw [mem_drawVectors_iff]
    decide
  · refine fair.2.2 Cycle steady_cycle _ 3 (by decide) _ _ ?_
    refine .die (.refused ?_ (.used (by decide) ?_ ?_))
      (.die (.used (by decide) ?_ ?_) .done) <;> decide

end Word

end DiceOdds
