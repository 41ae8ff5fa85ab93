import DiceOdds.Distribution.Middle
import DiceOdds.Proofs.ConvolutionCount
import Mathlib.Tactic.Ring

/-!
# Counting the middle of three dice

Seen from one outcome, a face lies below, at or above it.  The middle one of
three dice shows the outcome when neither two faces lie below it nor two above
it, and the faces of one die lie on the three sides in known numbers.
-/

namespace DiceOdds

/-- What the middle one of three dice shows, over all throws. -/
def Middle.shows (sides : Nat) : List Nat :=
  (List.range' 1 sides).flatMap fun first =>
    (List.range' 1 sides).flatMap fun second =>
      (List.range' 1 sides).map fun third =>
        max (min first second) (min (max first second) third)

/-- One if an outcome is in the middle of three faces that lie so around it. -/
def Middle.hit : Ordering → Ordering → Ordering → Nat
  | .lt, .lt, _ => 0
  | .lt, _, .lt => 0
  | _, .lt, .lt => 0
  | .gt, .gt, _ => 0
  | .gt, _, .gt => 0
  | _, .gt, .gt => 0
  | _, _, _ => 1

theorem Middle.hit_compare (first second third face : Nat) :
    (if max (min first second) (min (max first second) third) = face then 1
      else 0) =
      Middle.hit (compare first face) (compare second face) (compare third face) := by
  rcases Nat.lt_trichotomy first face with firstSide | firstSide | firstSide <;>
    rcases Nat.lt_trichotomy second face with secondSide | secondSide | secondSide <;>
    rcases Nat.lt_trichotomy third face with thirdSide | thirdSide | thirdSide <;>
    simp only [Nat.compare_eq_lt.mpr, Nat.compare_eq_eq.mpr, Nat.compare_eq_gt.mpr,
      firstSide, secondSide, thirdSide, Middle.hit, ite_eq_left_iff,
      ite_eq_right_iff] <;>
    omega

/-- The faces of a die lie below, at and above one of them in known numbers. -/
theorem Middle.sum_sides {sides face : Nat} (lower : 1 ≤ face) (upper : face ≤ sides)
    (share : Ordering → Nat) :
    ((List.range' 1 sides).map fun other => share (compare other face)).sum =
      (face - 1) * share .lt + share .eq + (sides - face) * share .gt := by
  have parts : List.range' 1 sides =
      List.range' 1 (face - 1) ++ face :: List.range' (face + 1) (sides - face) := by
    have joined := @List.range'_append_1 1 (face - 1) (sides - face + 1)
    have start : 1 + (face - 1) = face := by omega
    have length : face - 1 + (sides - face + 1) = sides := by omega
    rw [start, length, List.range'_succ] at joined
    exact joined.symm
  have below : ∀ other ∈ List.range' 1 (face - 1),
      share (compare other face) = share .lt := by
    intro other member
    have bounds := List.mem_range'_1.mp member
    rw [Nat.compare_eq_lt.mpr (by omega)]
  have above : ∀ other ∈ List.range' (face + 1) (sides - face),
      share (compare other face) = share .gt := by
    intro other member
    have bounds := List.mem_range'_1.mp member
    rw [Nat.compare_eq_gt.mpr (by omega)]
  rw [parts, List.map_append, List.map_cons, List.map_congr_left below,
    List.map_congr_left above, Nat.compare_eq_eq.mpr rfl]
  simp [Nat.add_assoc]

/-- The closed form of the number of ways counts them. -/
theorem Middle.count_shows {sides face : Nat} (lower : 1 ≤ face)
    (upper : face ≤ sides) :
    (Middle.shows sides).count face = Middle.frequency sides face := by
  have others : sides - 1 = (face - 1) + (sides - face) := by omega
  let row : Ordering → Ordering → Nat := fun first second =>
    (face - 1) * Middle.hit first second .lt + Middle.hit first second .eq +
      (sides - face) * Middle.hit first second .gt
  let table : Ordering → Nat := fun first =>
    (face - 1) * row first .lt + row first .eq + (sides - face) * row first .gt
  have rows : ∀ first second : Nat,
      ((List.range' 1 sides).map fun third => Middle.hit (compare first face)
        (compare second face) (compare third face)).sum =
        row (compare first face) (compare second face) := fun first second =>
    Middle.sum_sides lower upper (Middle.hit _ _)
  have tables : ∀ first : Nat,
      ((List.range' 1 sides).map fun second =>
        row (compare first face) (compare second face)).sum =
        table (compare first face) := fun first =>
    Middle.sum_sides lower upper (row _)
  rw [Middle.shows, List.count_flatMap]
  simp only [Function.comp_def, List.count_flatMap, count_map_eq_sum,
    Middle.hit_compare, rows, tables, Middle.sum_sides lower upper table]
  simp only [table, row, Middle.hit, Middle.frequency, others]
  ring

theorem Middle.mem_shows_iff {sides face : Nat} :
    face ∈ Middle.shows sides ↔ 1 ≤ face ∧ face ≤ sides := by
  simp only [Middle.shows, List.mem_flatMap, List.mem_map, List.mem_range'_1]
  constructor
  · intro ⟨first, firstBounds, second, secondBounds, third, thirdBounds, shown⟩
    omega
  · intro bounds
    exact ⟨face, by omega, face, by omega, face, by omega, by simp⟩

end DiceOdds
