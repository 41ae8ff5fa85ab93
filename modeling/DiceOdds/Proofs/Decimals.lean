import DiceOdds.Token.Scanner
import Mathlib.Data.List.Basic

/-!
# Decimal numerals and their values

A run of digits is read as its value in base ten whenever this does not pass the
bound: the value only grows from digit to digit, so no bound is passed on the way
that is not passed in the end.  The decimal digits of a number are such a run, and
the number is its value; they are the shortest run with this value, because only
zeros in front can be left out.
-/

namespace DiceOdds

/-- A run of digits that is not empty. -/
def Token.IsDigits (text : List Char) : Prop :=
  text ≠ [] ∧ ∀ character ∈ text, Token.isDigit character

theorem Token.isDigit_iff {character : Char} :
    Token.isDigit character ↔ '0' ≤ character ∧ character ≤ '9' := by
  unfold Token.isDigit Numeral.digit?
  split <;> simp [*]

theorem Numeral.digit?_of_isDigit {character : Char}
    (digit : Token.isDigit character) :
    Numeral.digit? character = some (character.toNat - '0'.toNat) :=
  if_pos (Token.isDigit_iff.mp digit)

/-- The value of a run of digits behind a value already read. -/
def Numeral.valueFrom (start : Nat) (digits : List Char) : Nat :=
  digits.foldl
    (fun value character => 10 * value + (Numeral.digit? character).getD 0) start

theorem Numeral.le_valueFrom (start : Nat) (digits : List Char) :
    start ≤ Numeral.valueFrom start digits := by
  induction digits generalizing start with
  | nil => exact Nat.le_refl _
  | cons character digits induction =>
      have grown := induction (10 * start + (Numeral.digit? character).getD 0)
      rw [Numeral.valueFrom, List.foldl_cons]
      exact Nat.le_trans (by omega) grown

theorem Numeral.valueFrom_cons {character : Char} (digit : Token.isDigit character)
    (start : Nat) (digits : List Char) :
    Numeral.valueFrom start (character :: digits) =
      Numeral.valueFrom (10 * start + (character.toNat - '0'.toNat)) digits := by
  rw [Numeral.valueFrom, List.foldl_cons, Numeral.digit?_of_isDigit digit]
  rfl

theorem Numeral.foldlM_extend {digits : List Char}
    (run : ∀ character ∈ digits, Token.isDigit character) {maximum start : Nat}
    (small : start ≤ maximum) :
    digits.foldlM (Numeral.extend maximum) start =
      if Numeral.valueFrom start digits ≤ maximum then
        .ok (Numeral.valueFrom start digits)
      else
        .error .tooLarge := by
  induction digits generalizing start with
  | nil => exact (if_pos small).symm
  | cons character digits induction =>
      rw [List.forall_mem_cons] at run
      rw [List.foldlM_cons, Numeral.extend, Numeral.digit?_of_isDigit run.1,
        Numeral.valueFrom_cons run.1]
      by_cases grown : 10 * start + (character.toNat - '0'.toNat) ≤ maximum
      · simp only [if_pos grown]
        exact induction run.2 grown
      · have further := Numeral.le_valueFrom
          (10 * start + (character.toNat - '0'.toNat)) digits
        simp only [if_neg grown]
        rw [if_neg (by omega)]
        rfl

theorem Numeral.dropSign_of_digits {text : List Char} (run : Token.IsDigits text) :
    Numeral.dropSign text = text := by
  unfold Numeral.dropSign
  split
  · have sign := run.2 '+' (by simp)
    contradiction
  · rfl

/-- A run of digits is refused only if its value passes the bound. -/
theorem Numeral.read_of_digits {text : List Char} (run : Token.IsDigits text)
    (maximum : Nat) :
    Numeral.read maximum text =
      if Numeral.value text ≤ maximum then .ok (Numeral.value text)
      else .error .tooLarge := by
  have filled : text.isEmpty = false := by
    rw [List.isEmpty_eq_false_iff]
    exact run.1
  rw [Numeral.read, filled, if_neg Bool.false_ne_true, Numeral.dropSign_of_digits run]
  exact Numeral.foldlM_extend run.2 (Nat.zero_le _)

theorem Numeral.map_read_of_digits {α : Type} {text : List Char}
    (run : Token.IsDigits text) {bound : Nat} (positive : 0 < bound) (make : Nat → α) :
    (Numeral.read (bound - 1) text).map make =
      if Numeral.value text < bound then .ok (make (Numeral.value text))
      else .error .tooLarge := by
  rw [Numeral.read_of_digits run]
  by_cases fits : Numeral.value text < bound
  · rw [if_pos fits, if_pos (by omega)]
    rfl
  · rw [if_neg fits, if_neg (by omega)]
    rfl

theorem Numeral.readConstant_of_digits {text : List Char} (run : Token.IsDigits text) :
    Numeral.readConstant text =
      if Numeral.value text < 2 ^ 63 then .ok (Int64.ofNat (Numeral.value text))
      else .error .tooLarge :=
  Numeral.map_read_of_digits run (by decide) Int64.ofNat

theorem Numeral.readCount_of_digits {text : List Char} (run : Token.IsDigits text) :
    Numeral.readCount text =
      if Numeral.value text < 2 ^ 64 then .ok (UInt64.ofNat (Numeral.value text))
      else .error .tooLarge :=
  Numeral.map_read_of_digits run (by decide) UInt64.ofNat

theorem Numeral.readConstant_eq_ok_iff {text : List Char}
    (run : Token.IsDigits text) {constant : Int64} :
    Numeral.readConstant text = .ok constant ↔
      Numeral.value text < 2 ^ 63 ∧ Int64.ofNat (Numeral.value text) = constant := by
  rw [Numeral.readConstant_of_digits run]
  by_cases fits : Numeral.value text < 2 ^ 63
  · rw [if_pos fits, Except.ok.injEq]
    exact (and_iff_right fits).symm
  · rw [if_neg fits]
    constructor
    · intro absurd
      contradiction
    · intro ⟨small, _⟩
      exact (fits small).elim

theorem Token.isDigit_of_toDigits {number : Nat} {character : Char}
    (member : character ∈ Nat.toDigits 10 number) : Token.isDigit character := by
  have digit := Nat.isDigit_of_mem_toDigits (by decide) (by decide) member
  rw [Token.isDigit_iff]
  simp only [Char.isDigit, Bool.and_eq_true, decide_eq_true_eq] at digit
  exact digit

theorem Token.isDigits_toDigits (number : Nat) :
    Token.IsDigits (Nat.toDigits 10 number) :=
  ⟨Nat.toDigits_ne_nil, fun _ => Token.isDigit_of_toDigits⟩

/-- A number is the value of its decimal digits. -/
theorem Numeral.value_toDigits (number : Nat) :
    Numeral.value (Nat.toDigits 10 number) = number := by
  have core : Nat.ofDigitChars 10 (Nat.toDigits 10 number) 0 = number :=
    Nat.ofDigitChars_ten_toDigits
  rw [Nat.ofDigitChars_eq_foldl] at core
  rw [Numeral.value]
  refine Eq.trans ?_ core
  apply List.foldl_ext
  intro value character member
  rw [Numeral.digit?_of_isDigit (Token.isDigit_of_toDigits member)]
  rfl

/-- A run of digits without the zeros in front that another digit follows. -/
def Numeral.shortest : List Char → List Char
  | '0' :: digit :: rest => Numeral.shortest (digit :: rest)
  | digits => digits

theorem Numeral.digitChar_of_isDigit {character : Char}
    (digit : Token.isDigit character) :
    Nat.digitChar (character.toNat - '0'.toNat) = character := by
  have bounds := Token.isDigit_iff.mp digit
  have lower : 48 ≤ character.toNat := bounds.1
  have upper : character.toNat ≤ 57 := bounds.2
  have zero : '0'.toNat = 48 := rfl
  apply Char.toNat_inj.mp
  rw [Nat.toNat_digitChar_of_lt_ten (by omega)]
  omega

theorem Numeral.toDigits_valueFrom {digits : List Char}
    (run : ∀ character ∈ digits, Token.isDigit character) {start : Nat}
    (positive : 0 < start) :
    Nat.toDigits 10 (Numeral.valueFrom start digits) =
      Nat.toDigits 10 start ++ digits := by
  induction digits generalizing start with
  | nil => exact (List.append_nil _).symm
  | cons character digits induction =>
      rw [List.forall_mem_cons] at run
      have small : character.toNat - '0'.toNat < 10 := by
        have upper : character.toNat ≤ 57 := (Token.isDigit_iff.mp run.1).2
        have zero : '0'.toNat = 48 := rfl
        omega
      have extended : Nat.toDigits 10 (10 * start + (character.toNat - '0'.toNat)) =
          Nat.toDigits 10 start ++ [character] := by
        rw [← Nat.toDigits_append_toDigits (by decide) positive small,
          Nat.toDigits_of_lt_base small, Numeral.digitChar_of_isDigit run.1]
      rw [Numeral.valueFrom_cons run.1, induction run.2 (by omega), extended,
        List.append_assoc, List.singleton_append]

/-- The decimal digits of a value are the shortest run of digits that has it. -/
theorem Numeral.toDigits_value {digits : List Char} (run : Token.IsDigits digits) :
    Nat.toDigits 10 (Numeral.value digits) = Numeral.shortest digits := by
  obtain ⟨filled, run⟩ := run
  fun_induction Numeral.shortest digits with
  | case1 digit rest induction =>
      rw [List.forall_mem_cons] at run
      exact induction (List.cons_ne_nil _ _) run.2
  | case2 digits noZero =>
      obtain ⟨first, rest, rfl⟩ := List.exists_cons_of_ne_nil filled
      rw [List.forall_mem_cons] at run
      have bounds := Token.isDigit_iff.mp run.1
      have lower : 48 ≤ first.toNat := bounds.1
      have upper : first.toNat ≤ 57 := bounds.2
      have zero : '0'.toNat = 48 := rfl
      have value : Numeral.value (first :: rest) =
          Numeral.valueFrom (first.toNat - '0'.toNat) rest := by
        have consumed := Numeral.valueFrom_cons run.1 0 rest
        rwa [Nat.mul_zero, Nat.zero_add] at consumed
      by_cases isZero : first = '0'
      · -- A zero that nothing follows is the whole numeral.
        cases rest with
        | nil => rw [isZero]; rfl
        | cons digit rest => exact absurd (by rw [isZero]) (noZero digit rest)
      · have positive : 0 < first.toNat - '0'.toNat := by
          have different : first.toNat ≠ 48 := fun same =>
            isZero (Char.toNat_inj.mp same)
          omega
        rw [value, Numeral.toDigits_valueFrom run.2 positive,
          Nat.toDigits_of_lt_base (by omega), Numeral.digitChar_of_isDigit run.1]
        rfl

end DiceOdds
