import DiceOdds.Operator

/-!
# Signed words

An operator on signed words gives the exact integer whenever that is a word.
-/

namespace DiceOdds

theorem toWord_of_isWord {value : Int} (word : isWord value) :
    toWord value = .ok (Int64.ofInt value) :=
  if_pos word

theorem toWord_of_not_isWord {value : Int} (noWord : ¬ isWord value) :
    toWord value = .error .overflow :=
  if_neg noWord

theorem toInt_ofInt_of_isWord {value : Int} (word : isWord value) :
    (Int64.ofInt value).toInt = value :=
  Int64.toInt_ofInt_of_le word.1 word.2

theorem ofInt_eq_iff {value : Int} (word : isWord value) {query : Int64} :
    Int64.ofInt value = query ↔ value = query.toInt := by
  rw [← Int64.toInt_inj, toInt_ofInt_of_isWord word]

/-- Among signed words an integer occurs as often as its word. -/
theorem count_map_ofInt {values : List Int} (words : ∀ value ∈ values, isWord value)
    (query : Int64) :
    (values.map Int64.ofInt).count query = values.count query.toInt := by
  rw [List.count_eq_countP, List.countP_map, List.count_eq_countP]
  apply List.countP_congr
  intro value member
  simp [ofInt_eq_iff (words value member)]

theorem toInt_max (lhs rhs : Int64) :
    (max lhs rhs).toInt = max lhs.toInt rhs.toInt := by
  change (if lhs ≤ rhs then rhs else lhs).toInt = _
  simp only [Int.max_def, Int64.le_iff_toInt_le]
  split <;> rfl

theorem toInt_min (lhs rhs : Int64) :
    (min lhs rhs).toInt = min lhs.toInt rhs.toInt := by
  change (if lhs ≤ rhs then lhs else rhs).toInt = _
  simp only [Int.min_def, Int64.le_iff_toInt_le]
  split <;> rfl

theorem Operator.apply_add (lhs rhs : Int64) :
    Operator.add.apply lhs rhs = toWord (lhs.toInt + rhs.toInt) :=
  rfl

/-- The value of an operator whose result is a signed word. -/
def Operator.value (operator : Operator) (lhs rhs : Int64) : Int64 :=
  Int64.ofInt (operator.exact lhs.toInt rhs.toInt)

theorem Operator.value_of_apply {operator : Operator} {lhs rhs result : Int64}
    (applied : operator.apply lhs rhs = .ok result) :
    operator.value lhs rhs = result := by
  unfold Operator.apply toWord at applied
  split at applied
  · contradiction
  · split at applied
    · exact Except.ok.inj applied
    · contradiction

end DiceOdds
