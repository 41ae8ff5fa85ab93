import DiceOdds.Proofs.DiceTexts
import DiceOdds.Proofs.FirstImpossible
import Mathlib.Data.List.Forall2

/-!
# The values of operands

Whatever is cut out of a text as a number or as dice has the form that its reader
expects, so it is read with the exact values of its digits, and the only fault that is
left is a value that is too large.  In an expression that is read, the numbers and dice
from left to right are those that the operands of the text stand for.
-/

namespace DiceOdds

mutual

/-- The numbers and dice of an expression from left to right. -/
def Expression.operands : Expression → List Atom
  | .term single => single.operands
  | .combine lhs _ rhs => lhs.operands ++ rhs.operands

/-- The numbers and dice of a term from left to right. -/
def Term.operands : Term → List Atom
  | .atom single => single.operands
  | .combine lhs _ rhs => lhs.operands ++ rhs.operands

/-- The atom itself, or the numbers and dice of a group. -/
def Atom.operands : Atom → List Atom
  | .constant value => [.constant value]
  | .dice dice lexeme => [.dice dice lexeme]
  | .group inner => inner.operands

end

/-- Numbers and dice are operands. -/
def Word.isOperand (word : Word) : Bool :=
  word.1 = .integer || word.1 = .dice

/-- A word stands for an operand with the exact values of its digits. -/
inductive Word.Denotes : Word → Atom → Prop where
  | constant {lexeme : String} {value : Int64} :
      Token.IsDigits lexeme.toList → Numeral.value lexeme.toList = value.toInt →
      Denotes (.integer, lexeme) (.constant value)
  | dice {lexeme : String} {dice : Dice} :
      Dice.Denotes lexeme.toList dice → Denotes (.dice, lexeme) (.dice dice lexeme)

/-- The text is a run of digits whose value is too large for a count. -/
def Numeral.PassesCount (text : List Char) : Prop :=
  Token.IsDigits text ∧ 2 ^ 64 ≤ Numeral.value text

/-- Reading a text comes to this token where an operand must stand. -/
def Token.ReachedAsOperand (text : String) (token : Token) : Prop :=
  ∃ (before : List Token) (later : List Token.Piece) (groups : List OpenGroup)
    (pending : Pending), Token.scan text = before.map .token ++ .token token :: later ∧
      Reading.initial.readAll before = .ok (.beforeOperand groups pending)

/-- A fault in a number or in dice is that of a value that is too large. -/
def GrammarFault.OnlyTooLarge (fault : GrammarFault) : Prop :=
  match fault.cause with
  | .invalidNumber cause =>
      cause = .tooLarge ∧ Token.IsDigits fault.slice.toList ∧
        2 ^ 63 ≤ Numeral.value fault.slice.toList
  | .invalidDice cause =>
      (cause = .invalidFaces .tooLarge ∨ cause = .invalidCount .tooLarge) ∧
        Dice.read fault.slice.toList = .error cause
  | _ => True

section Readers

variable {text count faces : List Char} {delimiter : Char}

theorem Numeral.readCount_of_passesCount (passes : Numeral.PassesCount text) :
    Numeral.readCount text = .error .tooLarge := by
  rw [Numeral.readCount_of_digits passes.1, if_neg (Nat.not_lt.mpr passes.2)]

theorem Numeral.exists_readCount (run : Token.IsDigits text)
    (fits : ¬ Numeral.PassesCount text) :
    ∃ number, Numeral.readCount text = .ok number := by
  have small : Numeral.value text < 2 ^ 64 :=
    Nat.lt_of_not_le fun wide => fits ⟨run, wide⟩
  exact ⟨_, (Numeral.readCount_of_digits run).trans (if_pos small)⟩

theorem Faces.read_of_passesCount (passes : Numeral.PassesCount text) :
    Faces.read text = .error .tooLarge := by
  rw [Faces.read, if_neg passes.1.unlettered.not_isFudgeWord,
    Numeral.readCount_of_passesCount passes]
  rfl

theorem Faces.exists_read (written : Faces.IsWritten text)
    (fits : ¬ Numeral.PassesCount text) : ∃ kind, Faces.read text = .ok kind := by
  by_cases fudge : Faces.isFudgeWord text
  · exact ⟨.fudge, if_pos fudge⟩
  · obtain ⟨sides, found⟩ := Numeral.exists_readCount (written.resolve_right fudge) fits
    refine ⟨.numbered sides, ?_⟩
    rw [Faces.read, if_neg fudge, found]
    rfl

/-- What is in front of the letter d holds none. -/
theorem Dice.undelimited_of_counted (counted : Token.IsDigits count ∨ Dice.isMiddleWord count) :
    ∀ character ∈ count, Dice.isDelimiter character = false :=
  counted.elim (fun run => run.unlettered.undelimited) Dice.undelimited_of_isMiddleWord

/-- Dice that are spelled as a token are read unless a number is too large, and of two
such numbers that of the faces is reported. -/
theorem Dice.read_of_written (counted : Token.IsDigits count ∨ Dice.isMiddleWord count)
    (delimits : Dice.isDelimiter delimiter) (written : Faces.IsWritten faces) :
    (Numeral.PassesCount faces →
      Dice.read (count ++ delimiter :: faces) = .error (.invalidFaces .tooLarge)) ∧
    (¬ Numeral.PassesCount faces → Numeral.PassesCount count →
      Dice.read (count ++ delimiter :: faces) = .error (.invalidCount .tooLarge)) ∧
    (¬ Numeral.PassesCount faces → ¬ Numeral.PassesCount count →
      ∃ dice, Dice.read (count ++ delimiter :: faces) = .ok dice) := by
  rw [Dice.read_split (Dice.undelimited_of_counted counted) delimits]
  refine ⟨?_, ?_, ?_⟩
  · intro passes
    rw [Faces.read_of_passesCount passes]
    rfl
  · intro fits passes
    obtain ⟨kind, found⟩ := Faces.exists_read written fits
    rw [found]
    simp only [Except.mapError, ok_bind, if_neg passes.1.unlettered.not_isMiddleWord,
      Numeral.readCount_of_passesCount passes]
    rfl
  · intro facesFit countFits
    obtain ⟨kind, found⟩ := Faces.exists_read written facesFit
    rw [found]
    by_cases middle : Dice.isMiddleWord count
    · refine ⟨.middle kind, ?_⟩
      simp only [Except.mapError, ok_bind, if_pos middle]
      rfl
    · obtain ⟨number, counts⟩ :=
        Numeral.exists_readCount (counted.resolve_right middle) countFits
      refine ⟨.sum number kind, ?_⟩
      simp only [Except.mapError, ok_bind, if_neg middle, counts]
      rfl

theorem Dice.fault_of_written (written : Dice.IsWritten text) {fault : Dice.Fault}
    (failed : Dice.read text = .error fault) :
    fault = .invalidFaces .tooLarge ∨ fault = .invalidCount .tooLarge := by
  obtain ⟨count, delimiter, faces, rfl, counted, delimits, facesWritten⟩ := written
  obtain ⟨facesFault, countFault, found⟩ :=
    Dice.read_of_written counted delimits facesWritten
  by_cases facesPass : Numeral.PassesCount faces
  · rw [facesFault facesPass] at failed
    cases failed
    exact .inl rfl
  · by_cases countPasses : Numeral.PassesCount count
    · rw [countFault facesPass countPasses] at failed
      cases failed
      exact .inr rfl
    · obtain ⟨dice, success⟩ := found facesPass countPasses
      rw [success] at failed
      contradiction

end Readers

section Faults

theorem Reading.onlyTooLarge_of_step {reading : Reading} {token : Token}
    {fault : GrammarFault} (spelled : token.kind.Spells token.lexeme.toList)
    (refused : reading.step (.token token) = .error (.ungrammatical fault)) :
    fault.OnlyTooLarge := by
  obtain ⟨kind, lexeme, start⟩ := token
  cases reading with
  | beforeOperand groups pending =>
      cases kind with
      | integer =>
          simp only [Reading.step, Reading.readOperand,
            Numeral.readConstant_of_digits spelled] at refused
          by_cases small : Numeral.value lexeme.toList < 2 ^ 63
          · simp only [if_pos small] at refused
            contradiction
          · simp only [if_neg small] at refused
            cases refused
            exact ⟨rfl, spelled, Nat.not_lt.mp small⟩
      | dice =>
          simp only [Reading.step, Reading.readOperand] at refused
          cases decoded : Dice.read lexeme.toList with
          | ok dice =>
              rw [decoded] at refused
              contradiction
          | error cause =>
              rw [decoded] at refused
              cases refused
              exact ⟨Dice.fault_of_written spelled decoded, decoded⟩
      | openParen =>
          simp only [Reading.step, Reading.readOperand] at refused
          split at refused
          · contradiction
          · cases refused
            trivial
      | _ =>
          cases refused
          trivial
  | afterOperand groups sum term =>
      cases kind with
      | plus | minus | star | slash => contradiction
      | closeParen =>
          cases groups with
          | nil =>
              cases refused
              trivial
          | cons group outer => contradiction
      | _ =>
          cases refused
          trivial

theorem Reading.onlyTooLarge_of_finish {reading : Reading} {size : Nat}
    {fault : GrammarFault} (failed : reading.finish size = .error (.ungrammatical fault)) :
    fault.OnlyTooLarge := by
  match reading with
  | .beforeOperand _ _ =>
      cases failed
      trivial
  | .afterOperand (_ :: _) _ _ =>
      cases failed
      trivial
  | .afterOperand [] _ _ => contradiction

/-- No fault of reading is about the form of a number or of dice. -/
theorem Expression.onlyTooLarge_of_read {text : String} {fault : GrammarFault}
    (failed : Expression.read text = .error (.ungrammatical fault)) :
    fault.OnlyTooLarge := by
  rcases error_of_bind_error failed with refused | ⟨reading, _, unfinished⟩
  · obtain ⟨before, culprit, later, stopped, scanned, _, stepped⟩ :=
      Reading.exists_refusal refused
    cases culprit with
    | unknown stray => cases stopped <;> cases stepped
    | token word =>
        have member : Token.Piece.token word ∈ Token.scan text := by
          simp [scanned]
        exact Reading.onlyTooLarge_of_step (Token.spells_of_mem_scanFrom member) stepped
  · exact Reading.onlyTooLarge_of_finish unfinished

theorem Token.ReachedAsOperand.read_of_refused {text : String} {token : Token}
    {fault : ReadFault} (reached : Token.ReachedAsOperand text token)
    (refused : ∀ groups pending,
      Reading.readOperand groups pending token = .error fault) :
    Expression.read text = .error fault := by
  obtain ⟨before, later, groups, pending, scanned, moved⟩ := reached
  rw [Expression.read, scanned, List.foldlM_append, Reading.foldlM_step_tokens, moved,
    ok_bind, List.foldlM_cons, Reading.step, refused groups pending]
  rfl

/-- A number that is too large is reported where it is reached. -/
theorem Token.ReachedAsOperand.read_of_wide {text : String} {token : Token}
    (reached : Token.ReachedAsOperand text token) (integer : token.kind = .integer)
    (wide : 2 ^ 63 ≤ Numeral.value token.lexeme.toList) :
    Expression.read text = .error (token.fault (.invalidNumber .tooLarge)) := by
  have digits : Token.IsDigits token.lexeme.toList := by
    obtain ⟨before, later, _, _, scanned, _⟩ := reached
    have member : Token.Piece.token token ∈ Token.scan text := by
      simp [scanned]
    have spells := Token.spells_of_mem_scanFrom member
    rw [integer] at spells
    exact spells
  have constant := Numeral.readConstant_of_digits digits
  rw [if_neg (Nat.not_lt.mpr wide)] at constant
  apply reached.read_of_refused
  intro groups pending
  simp only [Reading.readOperand, integer, constant]

/-- Dice that cannot be read are reported where they are reached. -/
theorem Token.ReachedAsOperand.read_of_dice {text : String} {token : Token}
    (reached : Token.ReachedAsOperand text token) (dice : token.kind = .dice)
    {fault : Dice.Fault} (failed : Dice.read token.lexeme.toList = .error fault) :
    Expression.read text = .error (token.fault (.invalidDice fault)) := by
  apply reached.read_of_refused
  intro groups pending
  simp only [Reading.readOperand, dice, failed]

end Faults

section Values

/-- Operands on both sides of a sign, which is none. -/
theorem Word.forall₂_filter_join {left right : List Word} {sign : Word}
    {leftAtoms rightAtoms : List Atom} (noOperand : sign.isOperand = false)
    (leftDenotes : List.Forall₂ Word.Denotes (left.filter Word.isOperand) leftAtoms)
    (rightDenotes : List.Forall₂ Word.Denotes (right.filter Word.isOperand) rightAtoms) :
    List.Forall₂ Word.Denotes ((left ++ sign :: right).filter Word.isOperand)
      (leftAtoms ++ rightAtoms) := by
  rw [List.filter_append, List.filter_cons_of_neg (by rw [noOperand]; decide)]
  exact List.rel_append leftDenotes rightDenotes

theorem Token.Kind.JoinsTerms.not_isOperand {sign : Word} {operator : Operator}
    (joins : sign.1.JoinsTerms operator) : sign.isOperand = false := by
  obtain ⟨kind, lexeme⟩ := sign
  cases joins <;> rfl

theorem Token.Kind.JoinsAtoms.not_isOperand {sign : Word} {operator : Operator}
    (joins : sign.1.JoinsAtoms operator) : sign.isOperand = false := by
  obtain ⟨kind, lexeme⟩ := sign
  cases joins <;> rfl

mutual

/-- The operands of a tree are those that the words stand for. -/
theorem Expression.Derives.operands {words : List Word} {expression : Expression}
    (derives : Expression.Derives words expression) (spelled : Word.AllSpelled words) :
    List.Forall₂ Word.Denotes (words.filter Word.isOperand) expression.operands := by
  cases derives with
  | term single => exact single.operands spelled
  | combine left joins right =>
      exact Word.forall₂_filter_join joins.not_isOperand (left.operands spelled.left)
        (right.operands spelled.right)

theorem Term.Derives.operands {words : List Word} {term : Term}
    (derives : Term.Derives words term) (spelled : Word.AllSpelled words) :
    List.Forall₂ Word.Denotes (words.filter Word.isOperand) term.operands := by
  cases derives with
  | atom single => exact single.operands spelled
  | combine left joins right =>
      exact Word.forall₂_filter_join joins.not_isOperand (left.operands spelled.left)
        (right.operands spelled.right)

theorem Atom.Derives.operands {words : List Word} {atom : Atom}
    (derives : Atom.Derives words atom) (spelled : Word.AllSpelled words) :
    List.Forall₂ Word.Denotes (words.filter Word.isOperand) atom.operands := by
  cases derives with
  | @constant lexeme small =>
      have digits : Token.IsDigits lexeme.toList := spelled _ (List.mem_singleton_self _)
      exact .cons (.constant digits (Int64.toInt_ofNat_of_lt small).symm) .nil
  | dice decoded => exact .cons (.dice (Dice.read_eq_ok_iff.mp decoded)) .nil
  | @group words opening closing inner derives =>
      have unchanged : ((Token.Kind.openParen, opening) :: words ++
          [(Token.Kind.closeParen, closing)]).filter Word.isOperand =
            words.filter Word.isOperand := by
        simp [Word.isOperand]
      rw [unchanged]
      exact derives.operands spelled.inner

end

theorem Expression.read_integer {text : String} (digits : Token.IsDigits text.toList) :
    (Numeral.value text.toList < 2 ^ 63 →
      ∃ value : Int64, Expression.read text = .ok (.ofAtom (.constant value)) ∧
        value.toInt = Numeral.value text.toList) ∧
    (2 ^ 63 ≤ Numeral.value text.toList → Expression.read text =
      .error (.ungrammatical ⟨.invalidNumber .tooLarge, 0, text.utf8ByteSize, text⟩)) := by
  have spells : Token.Kind.integer.Spells text.toList := digits
  have cut := tokenize_eq_single_iff.mpr spells
  constructor
  · intro small
    exact ⟨_, Expression.read_of_derives cut (.term (.atom (.constant small)))
      (Nat.zero_le _), Int64.toInt_ofNat_of_lt small⟩
  · intro wide
    have reached : Token.ReachedAsOperand text ⟨.integer, text, 0⟩ :=
      ⟨[], [], [], .start, tokenize_eq_ok_iff.mp cut, rfl⟩
    have fault : Token.fault ⟨.integer, text, 0⟩ (.invalidNumber .tooLarge) =
        .ungrammatical ⟨.invalidNumber .tooLarge, 0, text.utf8ByteSize, text⟩ := by
      rw [Token.fault, Token.stop, Nat.zero_add]
    rw [← fault]
    exact reached.read_of_wide rfl wide

end Values

/-- A single token of dice is read with the exact values of its digits unless one of them
is no count, the faces first; a single integer is read as its exact value unless this is
no constant.  Reading reports such a fault at the operand it comes to, and it never
reports another fault in a number or in dice.  The numbers and dice of what is read are
those that the tokens stand for, one for one. -/
theorem Expression.operands_exact :
    (∀ text, tokenize text = .ok [⟨.dice, text, 0⟩] →
      ∃ count delimiter faces, text.toList = count ++ delimiter :: faces ∧
        (Token.IsDigits count ∨ Dice.isMiddleWord count) ∧ delimiter ∈ ['d', 'D'] ∧
        (Token.IsDigits faces ∨ Faces.isFudgeWord faces) ∧
        (Numeral.PassesCount faces →
          Dice.read text.toList = .error (.invalidFaces .tooLarge)) ∧
        (¬ Numeral.PassesCount faces → Numeral.PassesCount count →
          Dice.read text.toList = .error (.invalidCount .tooLarge)) ∧
        (¬ Numeral.PassesCount faces → ¬ Numeral.PassesCount count →
          ∃ dice, Dice.read text.toList = .ok dice ∧ Dice.Denotes text.toList dice)) ∧
    (∀ text, tokenize text = .ok [⟨.integer, text, 0⟩] →
      Token.IsDigits text.toList ∧
      (Numeral.value text.toList < 2 ^ 63 →
        ∃ value : Int64, Expression.read text = .ok (.ofAtom (.constant value)) ∧
          value.toInt = Numeral.value text.toList) ∧
      (2 ^ 63 ≤ Numeral.value text.toList → Expression.read text =
        .error (.ungrammatical
          ⟨.invalidNumber .tooLarge, 0, text.utf8ByteSize, text⟩))) ∧
    (∀ text token, Token.ReachedAsOperand text token →
      (token.kind = .integer → 2 ^ 63 ≤ Numeral.value token.lexeme.toList →
        Expression.read text = .error (token.fault (.invalidNumber .tooLarge))) ∧
      ∀ fault, token.kind = .dice → Dice.read token.lexeme.toList = .error fault →
        Expression.read text = .error (token.fault (.invalidDice fault))) ∧
    (∀ text fault, Expression.read text = .error (.ungrammatical fault) →
      fault.OnlyTooLarge) ∧
    ∀ text expression, Expression.read text = .ok expression →
      ∃ tokens, tokenize text = .ok tokens ∧
        List.Forall₂ Word.Denotes ((tokens.map Token.word).filter Word.isOperand)
          expression.operands := by
  refine ⟨?_, ?_, ?_, fun text fault => Expression.onlyTooLarge_of_read, ?_⟩
  · intro text cut
    obtain ⟨count, delimiter, faces, split, counted, delimits, written⟩ :=
      tokenize_eq_single_iff.mp cut
    obtain ⟨facesFault, countFault, found⟩ := Dice.read_of_written counted delimits written
    rw [split]
    refine ⟨count, delimiter, faces, rfl, counted, Dice.isDelimiter_iff.mp delimits,
      written, facesFault, countFault, ?_⟩
    intro facesFit countFits
    obtain ⟨dice, success⟩ := found facesFit countFits
    exact ⟨dice, success, Dice.read_eq_ok_iff.mp success⟩
  · intro text cut
    have digits : Token.IsDigits text.toList := tokenize_eq_single_iff.mp cut
    exact ⟨digits, Expression.read_integer digits⟩
  · intro text token reached
    exact ⟨reached.read_of_wide, fun fault dice failed => reached.read_of_dice dice failed⟩
  · intro text expression success
    obtain ⟨tokens, cut, derives, _⟩ := Expression.derives_of_read success
    exact ⟨tokens, cut, derives.operands (Token.allSpelled_of_tokenize cut).words⟩

/-- Faces that are too large, the first number that is too large, and zeros in front. -/
theorem wide_operands_refused :
    (tokenize "1d18446744073709551616" = .ok [⟨.dice, "1d18446744073709551616", 0⟩] ∧
      Dice.read "1d18446744073709551616".toList = .error (.invalidFaces .tooLarge)) ∧
    Expression.read "9223372036854775808" = .error (.ungrammatical
      ⟨.invalidNumber .tooLarge, 0, 19, "9223372036854775808"⟩) ∧
    GrammarFault.OnlyTooLarge
      ⟨.invalidDice (.invalidCount .tooLarge), 2, 24, "18446744073709551616d6"⟩ ∧
    ∃ tokens, tokenize "(007d6-012)" = .ok tokens ∧
      List.Forall₂ Word.Denotes ((tokens.map Token.word).filter Word.isOperand)
        [.dice (.sum 7 (.numbered 6)) "007d6", .constant 12] := by
  have dice : tokenize "1d18446744073709551616" =
      .ok [⟨.dice, "1d18446744073709551616", 0⟩] := by
    decide +kernel
  have integer : tokenize "9223372036854775808" =
      .ok [⟨.integer, "9223372036854775808", 0⟩] := by
    decide +kernel
  have failed : Expression.read "2+18446744073709551616d6" = .error (.ungrammatical
      ⟨.invalidDice (.invalidCount .tooLarge), 2, 24, "18446744073709551616d6"⟩) := by
    decide +kernel
  have success : Expression.read "(007d6-012)" = .ok (.ofAtom (.group (.combine
      (.term (.atom (.dice (.sum 7 (.numbered 6)) "007d6"))) .sub (.atom (.constant 12))))) := by
    decide +kernel
  obtain ⟨diceRead, integerRead, _, faults, operands⟩ := Expression.operands_exact
  obtain ⟨count, delimiter, faces, split, counted, delimits, _, facesFault, _⟩ :=
    diceRead _ dice
  have behind : "1d18446744073709551616".toList.dropWhile
      (fun character => !Dice.isDelimiter character) = delimiter :: faces := by
    rw [split]
    exact Dice.dropWhile_split (Dice.undelimited_of_counted counted)
      (Dice.isDelimiter_iff.mpr delimits)
  have written : "1d18446744073709551616".toList.dropWhile
      (fun character => !Dice.isDelimiter character) = 'd' :: Nat.toDigits 10 (2 ^ 64) := by
    decide +kernel
  obtain ⟨_, wide⟩ := List.cons.inj (behind.symm.trans written)
  have passes : Numeral.PassesCount faces := by
    rw [wide]
    exact ⟨Token.isDigits_toDigits _, (Numeral.value_toDigits _).ge⟩
  exact ⟨⟨dice, facesFault passes⟩, (integerRead _ integer).2.2 (by decide +kernel),
    faults _ _ failed, operands _ _ success⟩

end DiceOdds
