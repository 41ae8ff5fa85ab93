import DiceOdds.Power
import Std.Data.ExtTreeMap

/-!
# Distributions

A distribution says of each outcome in how many equally likely ways it comes
about.  Outcomes are kept in ascending order, and an outcome may be present
with no way at all.  Two distributions are equal as soon as they agree on every
outcome.
-/

namespace DiceOdds

/-- Outcomes with the number of ways in which each comes about. -/
structure Distribution where
  table : Std.ExtTreeMap Int64 Nat
  deriving DecidableEq

def Distribution.empty : Distribution :=
  { table := ∅ }

def Distribution.frequency? (distribution : Distribution) (outcome : Int64) :
    Option Nat :=
  distribution.table[outcome]?

def Distribution.frequency (distribution : Distribution) (outcome : Int64) : Nat :=
  (distribution.frequency? outcome).getD 0

def Distribution.entries (distribution : Distribution) : List (Int64 × Nat) :=
  distribution.table.toList

def Distribution.outcomes (distribution : Distribution) : List Int64 :=
  distribution.entries.map Prod.fst

def Distribution.size (distribution : Distribution) : Nat :=
  distribution.table.size

def Distribution.total (distribution : Distribution) : Nat :=
  -- The zero of a sum without terms is the numeral, not that of a theory of monoids.
  @List.sum Nat _ Zero.ofOfNat0 (distribution.entries.map Prod.snd)

def Distribution.put (distribution : Distribution) (outcome : Int64) (ways : Nat) :
    Distribution :=
  { table := distribution.table.insert outcome ways }

def Distribution.add (distribution : Distribution) (outcome : Int64) (ways : Nat) :
    Distribution :=
  { table := distribution.table.alter outcome fun before =>
      some (before.getD 0 + ways) }

/-- The distribution of some entries; of two with one outcome the later holds. -/
def Distribution.ofList (entries : List (Int64 × Nat)) : Distribution :=
  entries.foldl (fun distribution entry => distribution.put entry.1 entry.2) .empty

def Distribution.singleton (outcome : Int64) : Distribution :=
  Distribution.empty.put outcome 1

/-- Distributions that agree on every outcome are equal. -/
@[ext] theorem Distribution.ext_frequency? {left right : Distribution}
    (agree : ∀ outcome, left.frequency? outcome = right.frequency? outcome) :
    left = right := by
  cases left with
  | mk leftTable =>
      cases right with
      | mk rightTable =>
          exact congrArg Distribution.mk (Std.ExtTreeMap.ext_getElem? agree)

@[simp] theorem Distribution.frequency?_empty (outcome : Int64) :
    Distribution.empty.frequency? outcome = none := by
  simp [Distribution.empty, Distribution.frequency?]

theorem Distribution.frequency?_put (distribution : Distribution)
    (outcome query : Int64) (ways : Nat) :
    (distribution.put outcome ways).frequency? query =
      if outcome = query then some ways else distribution.frequency? query := by
  simp [Distribution.put, Distribution.frequency?, Std.ExtTreeMap.getElem?_insert]

theorem Distribution.frequency?_add (distribution : Distribution)
    (outcome query : Int64) (ways : Nat) :
    (distribution.add outcome ways).frequency? query =
      if outcome = query then some (distribution.frequency outcome + ways)
      else distribution.frequency? query := by
  simp [Distribution.add, Distribution.frequency, Distribution.frequency?,
    Std.ExtTreeMap.getElem?_alter]

/-- An outcome is listed with its ways exactly when it has them. -/
theorem Distribution.mem_entries_iff {distribution : Distribution}
    {outcome : Int64} {ways : Nat} :
    (outcome, ways) ∈ distribution.entries ↔
      distribution.frequency? outcome = some ways :=
  Std.ExtTreeMap.mem_toList_iff_getElem?_eq_some

/-- Outcomes are listed in ascending order, each of them once. -/
theorem Distribution.entries_ascending (distribution : Distribution) :
    distribution.entries.Pairwise fun left right => left.1 < right.1 := by
  have ordered := distribution.table.ordered_keys_toList
  exact ordered.imp fun before => Std.compare_eq_lt.mp before

@[simp] theorem Distribution.length_entries (distribution : Distribution) :
    distribution.entries.length = distribution.size :=
  Std.ExtTreeMap.length_toList

end DiceOdds
