import DiceOdds.Random.ChaCha

/-!
# Sources of draws

The rollers that a session can be given: numbers taken in turn and folded into
the faces of a die, words taken in turn, or the stream of a seed.
-/

namespace DiceOdds

/-- Where draws come from. -/
inductive Source where
  /-- Numbers in turn, each folded into the faces. -/
  | script (numbers : Cycle)
  /-- Random words in turn. -/
  | words (cycle : Cycle)
  /-- Random words of a stream. -/
  | stream (chacha : ChaCha)
  deriving DecidableEq, Repr

/-- The face that a number is folded into: numbers count round and round through
the faces, and zero counts as one. -/
def Source.fold (sides : UInt64) (positive : 0 < sides) (number : UInt64) :
    Face sides :=
  .ofNat sides ((number.toNat - 1) % sides.toNat + 1) (by omega) (by
    rw [UInt64.lt_iff_toNat_lt] at positive
    exact Nat.mod_lt _ positive)

def Source.draw (sides : UInt64) (positive : 0 < sides) :
    Source → Face sides × Source
  | .script numbers =>
      let (number, numbers) := numbers.next
      (Source.fold sides positive number, .script numbers)
  | .words cycle =>
      let (face, cycle) := Roller.draw sides positive cycle
      (face, .words cycle)
  | .stream chacha =>
      let (face, chacha) := Roller.draw sides positive chacha
      (face, .stream chacha)

instance : Roller Source where
  draw := Source.draw

def Source.ofSeed (seed : UInt64) : Source :=
  .stream (.ofSeed seed)

end DiceOdds
