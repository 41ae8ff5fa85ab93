import DiceOdds.Power
import DiceOdds.Roll.Roller

/-!
# Fair faces from random words

A random 64-bit word is turned into a face by multiplying it with the number of
sides: the high half of the product picks the face, and the low half decides
whether the word is used at all.  Words are refused so that every face belongs
to equally many of those that are used.
-/

namespace DiceOdds

/-- A source of 64-bit words that repeat after `period` of them. -/
class WordSource (σ : Type) where
  next : σ → UInt64 × σ
  period : σ → Nat

/-- The number of zero bits in front of the first bit of a word. -/
def Word.leadingZeros (word : UInt64) : Nat :=
  63 - word.toNat.log2

def Word.zone (sides : UInt64) : Nat :=
  sides.toNat * Nat.pow 2 (Word.leadingZeros sides) - 1

def Word.isUsed (sides word : UInt64) : Bool :=
  word.toNat * sides.toNat % 2 ^ 64 ≤ Word.zone sides

def Word.face (sides : UInt64) (positive : 0 < sides) (word : UInt64) :
    Face sides :=
  .ofNat sides (1 + word.toNat * sides.toNat / 2 ^ 64) (by omega) (by
    have wordBound := word.toNat_lt
    rw [UInt64.lt_iff_toNat_lt] at positive
    have below : word.toNat * sides.toNat < sides.toNat * 2 ^ 64 := by
      rw [Nat.mul_comm]
      exact Nat.mul_lt_mul_of_pos_left wordBound positive
    have quotient := Nat.div_lt_of_lt_mul (Nat.mul_comm _ _ ▸ below)
    omega)

/-- Takes words until one is used, at most `attempts` of them. -/
def Word.draw {σ : Type} [WordSource σ] (sides : UInt64) (positive : 0 < sides) :
    Nat → σ → Face sides × σ
  | 0, source => (.one sides positive, source)
  | attempts + 1, source =>
      let (word, source) := WordSource.next source
      if Word.isUsed sides word then
        (Word.face sides positive word, source)
      else
        Word.draw sides positive attempts source

/-- Words are taken until one is used.  A source that has refused a whole period
of words would refuse for ever, and then the face is one. -/
instance {σ : Type} [WordSource σ] : Roller σ where
  draw sides positive source :=
    Word.draw sides positive (WordSource.period source) source

/-- A finite list of words, not empty, that is repeated for ever. -/
structure Cycle where
  first : UInt64
  rest : List UInt64
  /-- The words left before the list begins again. -/
  remaining : List UInt64
  deriving DecidableEq, Repr

def Cycle.ofWords (first : UInt64) (rest : List UInt64) : Cycle :=
  { first, rest, remaining := first :: rest }

def Cycle.next (cycle : Cycle) : UInt64 × Cycle :=
  match cycle.remaining with
  | [] => (cycle.first, { cycle with remaining := cycle.rest })
  | word :: remaining => (word, { cycle with remaining })

instance : WordSource Cycle where
  next := Cycle.next
  period cycle := cycle.rest.length + 1

end DiceOdds
