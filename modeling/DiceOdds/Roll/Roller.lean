/-!
# Rollers

A roller answers with one face of a die at a time.  That the answer is a face
of the die that was asked for is part of its type.
-/

namespace DiceOdds

abbrev Face (sides : UInt64) :=
  { face : UInt64 // 1 ≤ face ∧ face ≤ sides }

/-- A source of faces, whose state moves on with every draw. -/
class Roller (σ : Type) where
  draw (sides : UInt64) (positive : 0 < sides) : σ → Face sides × σ

def Face.one (sides : UInt64) (positive : 0 < sides) : Face sides :=
  ⟨1, by
    rw [UInt64.lt_iff_toNat_lt] at positive
    rw [UInt64.le_iff_toNat_le, UInt64.le_iff_toNat_le]
    simp at positive ⊢
    omega⟩

def Face.ofNat (sides : UInt64) (face : Nat) (lower : 1 ≤ face)
    (upper : face ≤ sides.toNat) : Face sides :=
  ⟨UInt64.ofNat face, by
    have fits : face < UInt64.size := Nat.lt_of_le_of_lt upper sides.toNat_lt
    rw [UInt64.le_iff_toNat_le, UInt64.le_iff_toNat_le,
      UInt64.toNat_ofNat_of_lt' fits]
    exact ⟨lower, upper⟩⟩

/-- A roller together with the draws asked of it, the latest first, each as the
number of faces and the face shown. -/
structure Recorded (σ : Type) where
  source : σ
  drawn : List (UInt64 × UInt64)

def Recorded.draws {σ : Type} (recorded : Recorded σ) : List (UInt64 × UInt64) :=
  recorded.drawn.reverse

instance {σ : Type} [Roller σ] : Roller (Recorded σ) where
  draw sides positive recorded :=
    let (face, source) := Roller.draw sides positive recorded.source
    (face, { source, drawn := (sides, face.val) :: recorded.drawn })

end DiceOdds
