import DiceOdds.Expression
import DiceOdds.Roll.Roller
import Mathlib.Algebra.BigOperators.Group.List.Basic
import Mathlib.Data.List.Forall2
import Mathlib.Data.List.Nodup
import Mathlib.Algebra.Ring.Int.Defs
import Mathlib.Algebra.GroupWithZero.Nat

/-!
# Draw vectors

An expression throws its dice in the order in which they stand in it, so the
sides of all dice that are thrown form a plan that is known before the first
draw.  A draw vector gives each die of a plan one of its faces.  Every roller
answers a plan with one of its draw vectors, and prepared faces are a roller
that answers with a draw vector chosen beforehand.
-/

namespace DiceOdds

mutual

/-- The dice of an expression in the order in which they stand in it. -/
def Expression.throws : Expression → List Dice
  | .term single => single.throws
  | .combine lhs _ rhs => lhs.throws ++ rhs.throws

/-- The dice of a term. -/
def Term.throws : Term → List Dice
  | .atom single => single.throws
  | .combine lhs _ rhs => lhs.throws ++ rhs.throws

/-- The dice of an atom. -/
def Atom.throws : Atom → List Dice
  | .constant _ => []
  | .dice dice _ => [dice]
  | .group inner => inner.throws

end

/-- The number of sides of each die that leaves the hand.  A Fudge die is drawn
as a die with three sides. -/
def Dice.plan (dice : Dice) : List UInt64 :=
  List.replicate dice.thrown.toNat dice.faces.outcomes

/-- The number of sides of each die of an expression, in the order of the
draws. -/
def Expression.plan (expression : Expression) : List UInt64 :=
  expression.throws.flatMap Dice.plan

/-- The faces of a die in ascending order. -/
def Face.all (sides : UInt64) : List UInt64 :=
  (List.range' 1 sides.toNat).map UInt64.ofNat

/-- All ways to give each die of a plan one of its faces. -/
def drawVectors : List UInt64 → List (List UInt64)
  | [] => [[]]
  | sides :: plan =>
      (Face.all sides).flatMap fun face =>
        (drawVectors plan).map fun draws => face :: draws

theorem sum_map_flatMap {α β ν : Type} [AddCommMonoid ν] (items : List α)
    (inner : α → List β) (share : β → ν) :
    ((items.flatMap inner).map share).sum =
      (items.map fun item => ((inner item).map share).sum).sum := by
  induction items with
  | nil => rfl
  | cons item items induction => simp [induction]

theorem Face.suits_iff {sides face : UInt64} :
    1 ≤ face ∧ face ≤ sides ↔ 1 ≤ face.toNat ∧ face.toNat ≤ sides.toNat := by
  rw [UInt64.le_iff_toNat_le, UInt64.le_iff_toNat_le]
  rfl

theorem Face.mem_all_iff {sides face : UInt64} :
    face ∈ Face.all sides ↔ 1 ≤ face ∧ face ≤ sides := by
  simp only [Face.all, List.mem_map, List.mem_range'_1, Face.suits_iff]
  constructor
  · rintro ⟨number, ⟨lower, upper⟩, rfl⟩
    have fits : number < 2 ^ 64 := Nat.lt_of_lt_of_le upper (by
      have := sides.toNat_lt
      omega)
    rw [UInt64.toNat_ofNat_of_lt' fits]
    exact ⟨lower, by omega⟩
  · intro ⟨lower, upper⟩
    exact ⟨face.toNat, ⟨by omega, by omega⟩, UInt64.ofNat_toNat⟩

/-- The faces of a die carry the numbers from one upwards. -/
theorem Face.toNat_all (sides : UInt64) :
    (Face.all sides).map UInt64.toNat = List.range' 1 sides.toNat := by
  rw [Face.all, List.map_map]
  conv_rhs => rw [← List.map_id (List.range' 1 sides.toNat)]
  apply List.map_congr_left
  intro number member
  have upper := (List.mem_range'_1.mp member).2
  have fits : number < 2 ^ 64 := Nat.lt_of_lt_of_le upper (by
    have := sides.toNat_lt
    omega)
  exact UInt64.toNat_ofNat_of_lt' fits

theorem Face.nodup_all (sides : UInt64) : (Face.all sides).Nodup := by
  apply List.Nodup.of_map UInt64.toNat
  rw [Face.toNat_all]
  exact List.nodup_range'

@[simp] theorem Face.length_all (sides : UInt64) :
    (Face.all sides).length = sides.toNat := by
  simp [Face.all]

/-- The draw vectors of a plan are the lists that give each die one of its
faces. -/
theorem mem_drawVectors_iff {plan draws : List UInt64} :
    draws ∈ drawVectors plan ↔
      List.Forall₂ (fun face sides => 1 ≤ face ∧ face ≤ sides) draws plan := by
  induction plan generalizing draws with
  | nil => simp [drawVectors]
  | cons sides plan induction =>
      simp only [drawVectors, List.mem_flatMap, List.mem_map, Face.mem_all_iff,
        induction, List.forall₂_cons_right_iff]
      constructor
      · rintro ⟨face, suits, rest, restSuits, rfl⟩
        exact ⟨face, rest, suits, restSuits, rfl⟩
      · rintro ⟨face, rest, suits, restSuits, rfl⟩
        exact ⟨face, suits, rest, restSuits, rfl⟩

/-- No draw vector is listed twice. -/
theorem nodup_drawVectors (plan : List UInt64) : (drawVectors plan).Nodup := by
  induction plan with
  | nil => simp [drawVectors]
  | cons sides plan induction =>
      rw [drawVectors, List.nodup_flatMap]
      constructor
      · intro face _
        exact induction.map fun left right equality => (List.cons.inj equality).2
      · apply (Face.nodup_all sides).imp
        intro left right different
        change List.Disjoint _ _
        rw [List.disjoint_left]
        rintro draws leftMember rightMember
        obtain ⟨_, _, rfl⟩ := List.mem_map.mp leftMember
        obtain ⟨_, _, equality⟩ := List.mem_map.mp rightMember
        exact different (List.cons.inj equality).1.symm

/-- There are as many draw vectors as the numbers of sides multiply to. -/
theorem length_drawVectors (plan : List UInt64) :
    (drawVectors plan).length = (plan.map UInt64.toNat).prod := by
  induction plan with
  | nil => rfl
  | cons sides plan induction =>
      simp [drawVectors, List.length_flatMap, induction]

/-- A draw vector of two plans in sequence is one of each, in sequence. -/
theorem drawVectors_append (first second : List UInt64) :
    drawVectors (first ++ second) =
      (drawVectors first).flatMap fun left =>
        (drawVectors second).map fun right => left ++ right := by
  induction first with
  | nil => simp [drawVectors]
  | cons sides first induction =>
      simp only [List.cons_append, drawVectors, induction, List.flatMap_assoc,
        List.flatMap_map, List.map_flatMap, List.map_map, Function.comp_def]

theorem append_mem_drawVectors {first second left right : List UInt64}
    (leftMember : left ∈ drawVectors first)
    (rightMember : right ∈ drawVectors second) :
    left ++ right ∈ drawVectors (first ++ second) := by
  rw [drawVectors_append]
  exact List.mem_flatMap.mpr
    ⟨left, leftMember, List.mem_map.mpr ⟨right, rightMember, rfl⟩⟩

theorem length_of_mem_drawVectors {plan draws : List UInt64}
    (member : draws ∈ drawVectors plan) : draws.length = plan.length :=
  (mem_drawVectors_iff.mp member).length_eq

/-- Faces prepared as answers for a roller. -/
structure Prepared where
  faces : List UInt64
  deriving DecidableEq, Repr

/-- The next prepared face is shown if the die has it.  The face one stands in
for a face that the die does not have and for one that has not been prepared. -/
instance : Roller Prepared where
  draw sides positive prepared :=
    match prepared.faces with
    | [] => (Face.one sides positive, prepared)
    | face :: rest =>
        if suits : 1 ≤ face ∧ face ≤ sides then (⟨face, suits⟩, ⟨rest⟩)
        else (Face.one sides positive, ⟨rest⟩)

theorem Prepared.draw_cons {sides face : UInt64} (positive : 0 < sides)
    (suits : 1 ≤ face ∧ face ≤ sides) (rest : List UInt64) :
    Roller.draw sides positive (Prepared.mk (face :: rest)) =
      (⟨face, suits⟩, ⟨rest⟩) :=
  dif_pos suits

theorem Face.sides_positive {sides face : UInt64}
    (suits : 1 ≤ face ∧ face ≤ sides) : 0 < sides :=
  UInt64.lt_of_lt_of_le (by decide) (UInt64.le_trans suits.1 suits.2)

theorem Face.last {sides : UInt64} (positive : 0 < sides) :
    1 ≤ sides ∧ sides ≤ sides := by
  rw [UInt64.lt_iff_toNat_lt] at positive
  simp only [UInt64.le_iff_toNat_le]
  exact ⟨positive, Nat.le_refl _⟩

/-- The answers of a roller to a plan, and the roller after them.  They end at a
die without sides. -/
def Roller.answers {σ : Type} [Roller σ] : List UInt64 → σ → List UInt64 × σ
  | [], source => ([], source)
  | sides :: plan, source =>
      if positive : 0 < sides then
        let (face, source) := Roller.draw sides positive source
        let (faces, source) := Roller.answers plan source
        (face.val :: faces, source)
      else
        ([], source)

section Answers

variable {σ : Type} [Roller σ]

theorem Roller.answers_cons {sides : UInt64} (positive : 0 < sides)
    (plan : List UInt64) (source : σ) :
    Roller.answers (sides :: plan) source =
      let drawn := Roller.draw sides positive source
      let later := Roller.answers plan drawn.2
      (drawn.1.val :: later.1, later.2) := by
  simp only [Roller.answers, dif_pos positive]

/-- A roller answers a plan with one of its draw vectors. -/
theorem Roller.answers_mem_drawVectors {plan : List UInt64}
    (positive : ∀ sides ∈ plan, 0 < sides) (source : σ) :
    (Roller.answers plan source).1 ∈ drawVectors plan := by
  rw [mem_drawVectors_iff]
  induction plan generalizing source with
  | nil => exact .nil
  | cons sides plan induction =>
      have head : 0 < sides := positive sides (by simp)
      have tail : ∀ later ∈ plan, 0 < later := fun later member =>
        positive later (List.mem_cons_of_mem _ member)
      rw [Roller.answers_cons head]
      exact .cons (Roller.draw sides head source).1.property (induction tail _)

/-- Two plans in sequence are answered in sequence. -/
theorem Roller.answers_append {first second : List UInt64}
    (positive : ∀ sides ∈ first, 0 < sides) (source : σ) :
    Roller.answers (first ++ second) source =
      let earlier := Roller.answers first source
      let later := Roller.answers second earlier.2
      (earlier.1 ++ later.1, later.2) := by
  induction first generalizing source with
  | nil => rfl
  | cons sides first induction =>
      have head : 0 < sides := positive sides (by simp)
      have tail : ∀ later ∈ first, 0 < later := fun later member =>
        positive later (List.mem_cons_of_mem _ member)
      simp only [List.cons_append, Roller.answers_cons head, induction tail]

/-- A recording roller answers as the roller it records, and keeps each answer
with the number of sides that was asked for. -/
theorem Roller.answers_recorded {plan : List UInt64}
    (positive : ∀ sides ∈ plan, 0 < sides) (source : σ)
    (drawn : List (UInt64 × UInt64)) :
    Roller.answers plan (Recorded.mk source drawn) =
      let answers := Roller.answers plan source
      (answers.1, ⟨answers.2, (plan.zip answers.1).reverse ++ drawn⟩) := by
  induction plan generalizing source drawn with
  | nil => rfl
  | cons sides plan induction =>
      have head : 0 < sides := positive sides (by simp)
      have tail : ∀ later ∈ plan, 0 < later := fun later member =>
        positive later (List.mem_cons_of_mem _ member)
      have recorded : Roller.draw sides head (Recorded.mk source drawn) =
          ((Roller.draw sides head source).1,
            ⟨(Roller.draw sides head source).2,
              (sides, (Roller.draw sides head source).1.val) :: drawn⟩) := rfl
      simp only [Roller.answers_cons head, recorded, induction tail,
        List.zip_cons_cons, List.reverse_cons, List.append_assoc,
        List.singleton_append]

end Answers

/-- Prepared faces are answered as they were prepared. -/
theorem Roller.answers_prepared {plan draws : List UInt64}
    (member : draws ∈ drawVectors plan) (rest : List UInt64) :
    Roller.answers plan (Prepared.mk (draws ++ rest)) = (draws, ⟨rest⟩) := by
  have suits := mem_drawVectors_iff.mp member
  clear member
  induction suits with
  | nil => rfl
  | @cons face sides draws plan suit suits induction =>
      rw [Roller.answers_cons (Face.sides_positive suit), List.cons_append,
        Prepared.draw_cons _ suit]
      simp only [induction]

end DiceOdds
