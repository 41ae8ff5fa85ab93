import DiceOdds.Binary64
import Mathlib.Data.Int.Log
import Mathlib.Data.Rat.Floor
import Mathlib.Tactic.FieldSimp
import Mathlib.Tactic.Linarith
import Mathlib.Tactic.Positivity
import Mathlib.Tactic.Ring

/-!
# Nearest binary numbers

A number of the format binary64 stands for a rational.  The number that a share of a
whole is rounded to is the nearest of all numbers of the format, the even one of two.
From this alone follow the bounds of a rounded share, its error and its growth with the
share; that it knows the share only as a ratio follows from the rounding itself.
-/

namespace DiceOdds

theorem two_zpow_eq_div (exponent : Int) :
    (2 : ℚ) ^ exponent =
      (Nat.pow 2 exponent.toNat : Nat) / (Nat.pow 2 (-exponent).toNat : Nat) := by
  rcases exponent with magnitude | magnitude
  · simp
  · simp [zpow_negSucc]

/-! ## Rounding to an integer -/

/-- An integer is within a half of a number, and exactly a half only where it is even. -/
structure RoundsTo (exact : ℚ) (integer : Nat) : Prop where
  error : |(integer : ℚ) - exact| ≤ 1 / 2
  even : |(integer : ℚ) - exact| = 1 / 2 → integer % 2 = 0

theorem RoundsTo.down {floor : Nat} {fraction : ℚ} (nonneg : 0 ≤ fraction)
    (small : fraction ≤ 1 / 2) (even : fraction = 1 / 2 → floor % 2 = 0) :
    RoundsTo (floor + fraction) floor := by
  have distance : |(floor : ℚ) - (floor + fraction)| = fraction := by
    rw [sub_add_cancel_left, abs_neg, abs_of_nonneg nonneg]
  exact ⟨distance.trans_le small, fun half => even (distance.symm.trans half)⟩

theorem RoundsTo.up {floor : Nat} {fraction : ℚ} (proper : fraction ≤ 1)
    (large : 1 / 2 ≤ fraction) (even : fraction = 1 / 2 → (floor + 1) % 2 = 0) :
    RoundsTo (floor + fraction) (floor + 1) := by
  have distance : |((floor + 1 : Nat) : ℚ) - (floor + fraction)| = 1 - fraction := by
    rw [Nat.cast_add_one, add_sub_add_left_eq_sub, abs_of_nonneg (by linarith)]
  refine ⟨by linarith, fun half => even ?_⟩
  linarith

theorem roundQuotient_roundsTo (numerator : Nat) {denominator : Nat}
    (positive : 0 < denominator) :
    RoundsTo (numerator / denominator) (roundQuotient numerator denominator) := by
  have positive' : (0 : ℚ) < denominator := by exact_mod_cast positive
  have parted : (numerator : ℚ) / denominator =
      (numerator / denominator : Nat) + (numerator % denominator : Nat) / denominator := by
    rw [div_eq_iff positive'.ne', add_mul, div_mul_cancel₀ _ positive'.ne']
    exact_mod_cast (Nat.div_add_mod' numerator denominator).symm
  have bounded := Nat.mod_lt numerator positive
  rw [parted]
  unfold roundQuotient
  generalize numerator / denominator = floor
  generalize numerator % denominator = remainder at bounded ⊢
  have nonneg : (0 : ℚ) ≤ (remainder : ℚ) / denominator := by positivity
  have proper : (remainder : ℚ) / denominator ≤ 1 := by
    rw [div_le_one positive']
    exact_mod_cast bounded.le
  -- The remainder against half of the denominator is the fraction against a half.
  have halves : (remainder : ℚ) / denominator * 2 = (2 * remainder : Nat) / denominator := by
    push_cast
    ring
  rcases Nat.lt_trichotomy (2 * remainder) denominator with below | equal | above
  · have small : ((2 * remainder : Nat) : ℚ) / denominator < 1 := by
      rw [div_lt_one positive']
      exact_mod_cast below
    rw [if_pos below]
    exact .down nonneg (by linarith) fun half => by linarith
  · have half : (remainder : ℚ) / denominator = 1 / 2 := by
      rw [equal, div_self positive'.ne'] at halves
      linarith
    rw [if_neg equal.not_lt, if_neg equal.not_gt]
    split
    next even => exact .down nonneg half.le fun _ => even
    next odd => exact .up proper half.ge fun _ => by omega
  · have large : 1 < ((2 * remainder : Nat) : ℚ) / denominator := by
      rw [one_lt_div positive']
      exact_mod_cast above
    rw [if_neg above.not_gt, if_pos above]
    exact .up proper (by linarith) fun half => by linarith

/-- Only the ratio counts. -/
theorem roundQuotient_mul_right (numerator denominator : Nat) {factor : Nat}
    (positive : 0 < factor) :
    roundQuotient (numerator * factor) (denominator * factor) =
      roundQuotient numerator denominator := by
  have quotient := Nat.mul_div_mul_right numerator denominator positive
  have remainder := Nat.mul_mod_mul_right factor numerator denominator
  unfold roundQuotient
  simp only [quotient, remainder, ← Nat.mul_assoc, Nat.mul_lt_mul_right positive]

/-- No integer is nearer to a number than the one it is rounded to, and another is as
near only where that one is even. -/
theorem RoundsTo.nearest {exact : ℚ} {integer : Nat} (rounds : RoundsTo exact integer)
    (other : Int) :
    |(integer : ℚ) - exact| ≤ |(other : ℚ) - exact| ∧
      (other ≠ integer → |(other : ℚ) - exact| = |(integer : ℚ) - exact| →
        integer % 2 = 0) := by
  by_cases same : other = integer
  · subst same
    simp
  · have apart : (1 : ℚ) ≤ |(other : ℚ) - integer| := by
      exact_mod_cast Int.one_le_abs (sub_ne_zero.mpr same)
    have triangle := abs_sub_le (other : ℚ) exact integer
    rw [abs_sub_comm exact] at triangle
    have error := rounds.error
    refine ⟨by linarith, fun _ tie => rounds.even ?_⟩
    linarith

/-! ## The place of the first bit -/

theorem two_zpow_le_div_iff (exponent : Int) (numerator : Nat) {denominator : Nat}
    (whole : 0 < denominator) :
    (2 : ℚ) ^ exponent ≤ (numerator : ℚ) / denominator ↔
      denominator * Nat.pow 2 exponent.toNat ≤ numerator * Nat.pow 2 (-exponent).toNat := by
  have whole' : (0 : ℚ) < denominator := by exact_mod_cast whole
  have place : (0 : ℚ) < (Nat.pow 2 (-exponent).toNat : Nat) := by
    exact_mod_cast Nat.two_pow_pos _
  rw [two_zpow_eq_div, div_le_div_iff₀ place whole', mul_comm]
  exact_mod_cast Iff.rfl

theorem floorLog2_bounds {numerator denominator : Nat} (positive : 0 < numerator)
    (whole : 0 < denominator) :
    (2 : ℚ) ^ floorLog2 numerator denominator ≤ (numerator : ℚ) / denominator ∧
      (numerator : ℚ) / denominator < (2 : ℚ) ^ (floorLog2 numerator denominator + 1) := by
  have whole' : (0 : ℚ) < denominator := by exact_mod_cast whole
  have numeratorLeast : (2 : ℚ) ^ (numerator.log2 : Int) ≤ numerator := by
    exact_mod_cast Nat.log2_self_le positive.ne'
  have numeratorBelow : (numerator : ℚ) < 2 ^ ((numerator.log2 : Int) + 1) := by
    exact_mod_cast Nat.lt_log2_self (n := numerator)
  have denominatorLeast : (2 : ℚ) ^ (denominator.log2 : Int) ≤ denominator := by
    exact_mod_cast Nat.log2_self_le whole.ne'
  have denominatorBelow : (denominator : ℚ) < 2 ^ ((denominator.log2 : Int) + 1) := by
    exact_mod_cast Nat.lt_log2_self (n := denominator)
  -- The difference of the two places is right or one too great.
  have above : (2 : ℚ) ^ ((numerator.log2 : Int) - denominator.log2 - 1) ≤
      (numerator : ℚ) / denominator := by
    rw [sub_sub, zpow_sub₀ two_ne_zero]
    exact div_le_div₀ (by positivity) numeratorLeast whole' denominatorBelow.le
  have below : (numerator : ℚ) / denominator <
      2 ^ ((numerator.log2 : Int) - denominator.log2 + 1) := by
    rw [sub_add_eq_add_sub, zpow_sub₀ two_ne_zero]
    exact div_lt_div₀ numeratorBelow denominatorLeast (zpow_pos two_pos _).le
      (zpow_pos two_pos _)
  unfold floorLog2
  dsimp only
  split
  next right => exact ⟨(two_zpow_le_div_iff _ _ whole).mpr right, below⟩
  next tooGreat =>
    rw [← two_zpow_le_div_iff _ _ whole, not_le] at tooGreat
    rw [sub_add_cancel]
    exact ⟨above, tooGreat⟩

theorem floorLog2_eq_log {numerator denominator : Nat} (positive : 0 < numerator)
    (whole : 0 < denominator) :
    floorLog2 numerator denominator = Int.log 2 ((numerator : ℚ) / denominator) := by
  obtain ⟨least, below⟩ := floorLog2_bounds positive whole
  have share : (0 : ℚ) < numerator / denominator := by positivity
  apply le_antisymm
  · exact (Int.zpow_le_iff_le_log one_lt_two share).mp (by exact_mod_cast least)
  · exact Int.le_of_lt_add_one
      ((Int.lt_zpow_iff_log_lt one_lt_two share).mp (by exact_mod_cast below))

namespace Binary64

/-! ## Numbers of the format -/

def value (number : Binary64) : ℚ :=
  number.significand * (2 : ℚ) ^ number.exponent

/-- The finite numbers of binary64: 53 bits, the last of them neither below `2 ^ -1074`
nor above `2 ^ 971`. -/
def Representable (exact : ℚ) : Prop :=
  ∃ significand exponent : Int, |significand| < 2 ^ 53 ∧ -1074 ≤ exponent ∧
    exponent ≤ 971 ∧ exact = significand * (2 : ℚ) ^ exponent

/-- The one form of a number in which its last bit is that of the format: all 53 bits
are used, or the last has the least place. -/
structure IsCanonical (number : Binary64) : Prop where
  below : number.significand < 2 ^ 53
  least : -1074 ≤ number.exponent
  greatest : number.exponent ≤ 971
  full : number.exponent = -1074 ∨ 2 ^ 52 ≤ number.significand

/-- No number of the format is nearer to the exact one, and where another is as near,
the last bit is zero. -/
structure IsNearest (number : Binary64) (exact : ℚ) : Prop where
  canonical : number.IsCanonical
  closest : ∀ other, Representable other → |number.value - exact| ≤ |other - exact|
  even : ∀ other, Representable other → other ≠ number.value →
    |other - exact| = |number.value - exact| → number.significand % 2 = 0

theorem IsCanonical.representable {number : Binary64} (canonical : number.IsCanonical) :
    Representable number.value := by
  refine ⟨number.significand, number.exponent, ?_, canonical.least, canonical.greatest, ?_⟩
  · rw [Nat.abs_cast]
    exact_mod_cast canonical.below
  · rw [value, Int.cast_natCast]

/-! ## The last place -/

/-- The place of the last bit that the format has for a number. -/
structure IsLastPlace (exact : ℚ) (place : Int) : Prop where
  least : -1074 ≤ place
  below : exact < 2 ^ 53 * (2 : ℚ) ^ place
  full : place ≠ -1074 → 2 ^ 52 * (2 : ℚ) ^ place ≤ exact

theorem lastPlace_isLastPlace {numerator denominator : Nat} (positive : 0 < numerator)
    (whole : 0 < denominator) :
    IsLastPlace (numerator / denominator) (lastPlace numerator denominator) := by
  obtain ⟨least, below⟩ := floorLog2_bounds positive whole
  unfold lastPlace
  refine ⟨le_max_left _ _, below.trans_le ?_, fun above => ?_⟩
  · rw [← zpow_natCast, ← zpow_add₀ two_ne_zero]
    exact zpow_le_zpow_right₀ one_le_two (by omega)
  · rw [max_eq_right (by omega), ← zpow_natCast, ← zpow_add₀ two_ne_zero]
    convert least using 2
    push_cast
    omega

theorem lastPlace_of_share {numerator denominator : Nat} (positive : 0 < numerator)
    (share : numerator ≤ denominator) :
    lastPlace numerator denominator ≤ -52 := by
  have whole : 0 < denominator := positive.trans_le share
  obtain ⟨least, _⟩ := floorLog2_bounds positive whole
  have atMostOne : (numerator : ℚ) / denominator ≤ 1 := by
    rw [div_le_one (by exact_mod_cast whole)]
    exact_mod_cast share
  have bound := (zpow_le_one_iff_right₀ (one_lt_two (α := ℚ))).mp (least.trans atMostOne)
  unfold lastPlace
  omega

/-- A number of the format is a multiple of the last place, or it lies below all that
have their last bit there. -/
theorem IsLastPlace.multiple_or_below {exact other : ℚ} {place : Int}
    (last : IsLastPlace exact place) (represented : Representable other) :
    (∃ multiple : Int, other = multiple * (2 : ℚ) ^ place) ∨
      other < 2 ^ 52 * (2 : ℚ) ^ place ∧ 2 ^ 52 * (2 : ℚ) ^ place ≤ exact := by
  obtain ⟨significand, exponent, narrow, least, _, rfl⟩ := represented
  rcases le_or_gt place exponent with coarse | fine
  · refine .inl ⟨significand * 2 ^ (exponent - place).toNat, ?_⟩
    push_cast
    rw [mul_assoc, ← zpow_natCast, ← zpow_add₀ two_ne_zero, Int.toNat_of_nonneg (by omega),
      sub_add_cancel]
  · refine .inr ⟨?_, last.full (by omega)⟩
    have narrow' : (significand : ℚ) < 2 ^ 53 := by
      exact_mod_cast (le_abs_self significand).trans_lt narrow
    calc
      (significand : ℚ) * 2 ^ exponent < 2 ^ 53 * 2 ^ exponent :=
        mul_lt_mul_of_pos_right narrow' (zpow_pos two_pos _)
      _ ≤ 2 ^ 53 * 2 ^ (place - 1) :=
        mul_le_mul_of_nonneg_left (zpow_le_zpow_right₀ one_le_two (by omega)) (by positivity)
      _ = 2 ^ 52 * 2 ^ place := by
        rw [zpow_sub_one₀ two_ne_zero]
        ring

/-- A multiple of the last place that is nearest among these is nearest in the format. -/
theorem IsLastPlace.closest {exact other : ℚ} {place : Int} {multiple : Nat}
    (last : IsLastPlace exact place) (rounds : RoundsTo (exact / 2 ^ place) multiple)
    (represented : Representable other) :
    |(multiple : ℚ) * 2 ^ place - exact| ≤ |other - exact| ∧
      (other ≠ multiple * 2 ^ place →
        |other - exact| = |(multiple : ℚ) * 2 ^ place - exact| → multiple % 2 = 0) := by
  have unit : (0 : ℚ) < 2 ^ place := zpow_pos two_pos _
  have measured (number : ℚ) :
      |number * 2 ^ place - exact| = |number - exact / 2 ^ place| * 2 ^ place := by
    rw [← abs_of_pos unit, ← abs_mul, sub_mul, abs_of_pos unit, div_mul_cancel₀ _ unit.ne']
  rcases last.multiple_or_below represented with ⟨integer, rfl⟩ | ⟨below, above⟩
  · obtain ⟨near, tie⟩ := rounds.nearest integer
    rw [measured, measured]
    refine ⟨mul_le_mul_of_nonneg_right near unit.le, fun differ equal => ?_⟩
    refine tie (fun same => differ ?_) (mul_right_cancel₀ unit.ne' equal)
    rw [same, Int.cast_natCast]
  · -- The least number with all its bits lies between, and it is a multiple.
    obtain ⟨near, _⟩ := rounds.nearest (2 ^ 52)
    have between : |(2 : ℚ) ^ 52 * 2 ^ place - exact| < |other - exact| := by
      rw [abs_sub_comm, abs_of_nonneg (by linarith), abs_sub_comm,
        abs_of_pos (by linarith)]
      linarith
    have nearer : |(multiple : ℚ) * 2 ^ place - exact| ≤ |(2 : ℚ) ^ 52 * 2 ^ place - exact| := by
      rw [measured, measured]
      exact mul_le_mul_of_nonneg_right (by exact_mod_cast near) unit.le
    exact ⟨by linarith, fun _ tie => by linarith⟩

/-! ## The number a share is rounded to -/

theorem zero_isNearest : IsNearest .zero 0 := by
  have value : zero.value = 0 := by simp [value, zero]
  refine ⟨by constructor <;> decide, fun other _ => ?_, fun _ _ _ _ => rfl⟩
  rw [value, sub_self, abs_zero]
  exact abs_nonneg _

/-- The significand, before a carry into a new first bit. -/
def nearestSignificand (numerator denominator : Nat) : Nat :=
  roundQuotient (numerator * Nat.pow 2 (-lastPlace numerator denominator).toNat)
    (denominator * Nat.pow 2 (lastPlace numerator denominator).toNat)

theorem nearestSignificand_roundsTo (numerator : Nat) {denominator : Nat}
    (whole : 0 < denominator) :
    RoundsTo ((numerator : ℚ) / denominator / 2 ^ lastPlace numerator denominator)
      (nearestSignificand numerator denominator) := by
  rw [two_zpow_eq_div, div_div_div_eq, ← Nat.cast_mul, ← Nat.cast_mul]
  exact roundQuotient_roundsTo _ (Nat.mul_pos whole (Nat.two_pow_pos _))

theorem nearest_of_positive {numerator : Nat} (denominator : Nat)
    (positive : 0 < numerator) :
    nearest numerator denominator =
      if nearestSignificand numerator denominator = 2 ^ 53 then
        { significand := 2 ^ 52, exponent := lastPlace numerator denominator + 1 }
      else
        { significand := nearestSignificand numerator denominator
          exponent := lastPlace numerator denominator } := by
  rw [nearest, if_neg positive.ne']
  rfl

theorem value_nearest {numerator : Nat} (denominator : Nat) (positive : 0 < numerator) :
    (nearest numerator denominator).value =
      nearestSignificand numerator denominator * 2 ^ lastPlace numerator denominator := by
  rw [nearest_of_positive denominator positive]
  split
  next carry =>
    rw [value, carry, zpow_add_one₀ two_ne_zero]
    push_cast
    ring
  next => rfl

/-- Rounding keeps within the bits of the format, up to a carry. -/
theorem nearestSignificand_bounds {numerator denominator : Nat} (positive : 0 < numerator)
    (whole : 0 < denominator) :
    nearestSignificand numerator denominator ≤ 2 ^ 53 ∧
      (lastPlace numerator denominator = -1074 ∨
        2 ^ 52 ≤ nearestSignificand numerator denominator) := by
  have last := lastPlace_isLastPlace positive whole
  have rounds := nearestSignificand_roundsTo numerator whole
  generalize lastPlace numerator denominator = place at last rounds ⊢
  generalize nearestSignificand numerator denominator = significand at rounds ⊢
  have unit : (0 : ℚ) < 2 ^ place := zpow_pos two_pos _
  obtain ⟨aboveHalf, belowHalf⟩ := abs_le.mp rounds.error
  constructor
  · have below := (div_lt_iff₀ unit).mpr last.below
    have most : (significand : ℚ) < (2 ^ 53 + 1 : Nat) := by
      push_cast
      linarith
    exact Nat.le_of_lt_add_one (by exact_mod_cast most)
  · by_cases subnormal : place = -1074
    · exact .inl subnormal
    · have full := (le_div_iff₀ unit).mpr (last.full subnormal)
      have least : ((2 ^ 52 : Nat) : ℚ) < (significand + 1 : Nat) := by
        push_cast
        linarith
      exact .inr (Nat.le_of_lt_add_one (by exact_mod_cast least))

theorem nearest_isNearest {numerator denominator : Nat} (whole : 0 < denominator)
    (share : numerator ≤ denominator) :
    IsNearest (nearest numerator denominator) (numerator / denominator) := by
  rcases Nat.eq_zero_or_pos numerator with rfl | positive
  · rw [nearest, if_pos rfl, Nat.cast_zero, zero_div]
    exact zero_isNearest
  have last := lastPlace_isLastPlace positive whole
  have rounds := nearestSignificand_roundsTo numerator whole
  have closest (other : ℚ) (represented : Representable other) :=
    last.closest rounds represented
  rw [← value_nearest denominator positive] at closest
  refine ⟨?_, fun other represented => (closest other represented).1,
    fun other represented differ tie => ?_⟩
  · obtain ⟨most, full⟩ := nearestSignificand_bounds positive whole
    have low := lastPlace_of_share positive share
    have least := last.least
    rw [nearest_of_positive denominator positive]
    split
    next => exact ⟨by dsimp only; decide, by dsimp only; omega, by dsimp only; omega, .inr le_rfl⟩
    next noCarry =>
      exact ⟨Nat.lt_of_le_of_ne most noCarry, least, by dsimp only; omega, full⟩
  · have even := (closest other represented).2 differ tie
    rw [nearest_of_positive denominator positive]
    split
    next => exact (by decide : 2 ^ 52 % 2 = 0)
    next => exact even

/-! ## What being nearest gives -/

theorem value_nonneg (number : Binary64) : 0 ≤ number.value :=
  mul_nonneg (Nat.cast_nonneg _) (zpow_pos two_pos _).le

theorem representable_one : Representable 1 :=
  ⟨1, 0, by decide, by decide, by decide, by simp⟩

theorem IsNearest.le_one {number : Binary64} {exact : ℚ} (near : number.IsNearest exact)
    (share : exact ≤ 1) : number.value ≤ 1 := by
  have closest := near.closest 1 representable_one
  rw [abs_of_nonneg (sub_nonneg.mpr share)] at closest
  linarith [le_abs_self (number.value - exact)]

/-- Between zero and one the numbers of the format lie at most `2 ^ -53` apart. -/
theorem exists_representable_near {exact : ℚ} (nonneg : 0 ≤ exact) (share : exact ≤ 1) :
    ∃ other, Representable other ∧ |other - exact| ≤ 1 / 2 ^ 54 := by
  have error := abs_sub_round (exact * 2 ^ 53)
  generalize round (exact * 2 ^ 53) = steps at error
  obtain ⟨aboveHalf, belowHalf⟩ := abs_le.mp error
  have least : 0 ≤ steps := by
    have aboveMinusOne : (-1 : ℚ) < steps := by linarith
    exact Int.le_of_sub_one_lt (by exact_mod_cast aboveMinusOne)
  have most : steps ≤ 2 ^ 53 := by
    have belowNext : (steps : ℚ) < 2 ^ 53 + 1 := by linarith
    exact Int.le_of_lt_add_one (by exact_mod_cast belowNext)
  have close : |steps * (2 : ℚ) ^ (-53 : Int) - exact| ≤ 1 / 2 ^ 54 := by
    have scaled : steps * (2 : ℚ) ^ (-53 : Int) - exact =
        -(exact * 2 ^ 53 - steps) / 2 ^ 53 := by
      rw [zpow_neg]
      field_simp
      ring
    rw [scaled, abs_div, abs_neg, abs_of_pos (by positivity : (0 : ℚ) < 2 ^ 53)]
    calc
      |exact * 2 ^ 53 - steps| / 2 ^ 53 ≤ 1 / 2 / 2 ^ 53 :=
        div_le_div_of_nonneg_right error (by positivity)
      _ = 1 / 2 ^ 54 := by norm_num
  refine ⟨_, ?_, close⟩
  rcases most.eq_or_lt with rfl | below
  · convert representable_one
    norm_num
  · exact ⟨steps, -53, by rwa [abs_of_nonneg least], by decide, by decide, rfl⟩

theorem IsNearest.error {number : Binary64} {exact : ℚ} (near : number.IsNearest exact)
    (nonneg : 0 ≤ exact) (share : exact ≤ 1) :
    |number.value - exact| ≤ 1 / 2 ^ 54 := by
  obtain ⟨other, represented, close⟩ := exists_representable_near nonneg share
  exact (near.closest other represented).trans close

theorem abs_sub_le_abs_sub_iff {near far point : ℚ} :
    |near - point| ≤ |far - point| ↔ (near - far) * (near + far - 2 * point) ≤ 0 := by
  have difference : (near - point) ^ 2 - (far - point) ^ 2 =
      (near - far) * (near + far - 2 * point) := by
    ring
  rw [← sq_le_sq, ← difference, sub_nonpos]

/-- Of two numbers the greater is not rounded to the lesser value. -/
theorem IsNearest.mono {lesser greater : Binary64} {below above : ℚ}
    (nearBelow : lesser.IsNearest below) (nearAbove : greater.IsNearest above)
    (ordered : below < above) : lesser.value ≤ greater.value := by
  by_contra! crossed
  have fromBelow := nearBelow.closest _ nearAbove.canonical.representable
  have fromAbove := nearAbove.closest _ nearBelow.canonical.representable
  rw [abs_sub_le_abs_sub_iff] at fromBelow fromAbove
  -- The middle between the two values is not above the lesser number, nor below the greater.
  have middleLow := nonpos_of_mul_nonpos_right fromBelow (sub_pos.mpr crossed)
  have middleHigh := nonneg_of_mul_nonpos_right fromAbove (sub_neg.mpr crossed)
  linarith

theorem lastPlace_mul_right {numerator denominator factor : Nat} (positive : 0 < numerator)
    (whole : 0 < denominator) (times : 0 < factor) :
    lastPlace (numerator * factor) (denominator * factor) =
      lastPlace numerator denominator := by
  unfold lastPlace
  rw [floorLog2_eq_log (Nat.mul_pos positive times) (Nat.mul_pos whole times),
    floorLog2_eq_log positive whole, Nat.cast_mul, Nat.cast_mul,
    mul_div_mul_right _ _ (by exact_mod_cast times.ne')]

/-- A quotient is rounded as the ratio it is. -/
theorem nearest_mul_right {numerator denominator factor : Nat} (whole : 0 < denominator)
    (times : 0 < factor) :
    nearest (numerator * factor) (denominator * factor) =
      nearest numerator denominator := by
  rcases Nat.eq_zero_or_pos numerator with rfl | positive
  · rw [Nat.zero_mul, nearest, nearest, if_pos rfl, if_pos rfl]
  rw [nearest_of_positive _ (Nat.mul_pos positive times), nearest_of_positive _ positive,
    nearestSignificand, lastPlace_mul_right positive whole times, Nat.mul_right_comm,
    Nat.mul_right_comm denominator, roundQuotient_mul_right _ _ times, nearestSignificand]

end Binary64

end DiceOdds
