import DiceOdds.Proofs.PrintRead
import DiceOdds.Text.Blank

/-!
# What printing keeps of a text

Reading a text and printing the tree gives back the words of the text, one for
one: a parenthesis that adds nothing stays, and dice stay as they were written.
Only a number that began with superfluous zeros is written without them.  The
printed text is these words in a row, with a blank on either side of every
operator and no other white space.
-/

namespace DiceOdds

/-- A word with a number in its shortest form. -/
def Word.shortest (word : Word) : Word :=
  match word.1 with
  | .integer => (.integer, String.ofList (Numeral.shortest word.2.toList))
  | _ => word

/-- A word as it stands in a row of words: an operator has a blank on either
side. -/
def Word.spaced (word : Word) : String :=
  match word.1.operator? with
  | some _ => " " ++ word.2 ++ " "
  | none => word.2

/-- Words in a row. -/
def Word.layout (words : List Word) : String :=
  String.join (words.map Word.spaced)

theorem Word.layout_operand {word : Word} (operand : word.1.operator? = none) :
    Word.layout [word] = word.2 := by
  have alone : Word.spaced word = word.2 := by
    rw [Word.spaced, operand]
  rw [Word.layout, List.map_cons, List.map_nil, String.join_cons, String.join_nil,
    String.append_empty, alone]

theorem Word.layout_join (left right : List Word) (operator : Operator) :
    Word.layout (left ++ operator.word :: right) =
      operator.join (Word.layout left) (Word.layout right) := by
  have sign : Word.spaced operator.word = " " ++ operator.text ++ " " := by
    cases operator <;> rfl
  rw [Word.layout, List.map_append, List.map_cons, String.join_append, String.join_cons,
    sign, Operator.join]
  simp only [Word.layout, String.append_assoc]

theorem Word.layout_parenthesize (words : List Word) :
    Word.layout ((.openParen, "(") :: words ++ [(.closeParen, ")")]) =
      parenthesize (Word.layout words) := by
  have opening : Word.spaced (.openParen, "(") = "(" := rfl
  have closing : Word.spaced (.closeParen, ")") = ")" := rfl
  simp only [Word.layout, List.cons_append, List.map_cons, List.map_append, List.map_nil,
    String.join_cons, String.join_append, String.join_nil, opening, closing,
    String.append_empty, parenthesize, String.append_assoc]

mutual

/-- An expression is printed as its words in a row. -/
theorem Expression.text_eq_layout (expression : Expression) :
    expression.text = Word.layout expression.words := by
  cases expression with
  | term single => exact single.text_eq_layout
  | combine lhs operator rhs =>
      have printed : (Expression.combine lhs operator rhs).text =
          operator.join lhs.text rhs.text := rfl
      rw [printed, lhs.text_eq_layout, rhs.text_eq_layout, Expression.words,
        Word.layout_join]

theorem Term.text_eq_layout (term : Term) : term.text = Word.layout term.words := by
  cases term with
  | atom single => exact single.text_eq_layout
  | combine lhs operator rhs =>
      have printed : (Term.combine lhs operator rhs).text =
          operator.join lhs.text rhs.text := rfl
      rw [printed, lhs.text_eq_layout, rhs.text_eq_layout, Term.words, Word.layout_join]

theorem Atom.text_eq_layout (atom : Atom) : atom.text = Word.layout atom.words := by
  cases atom with
  | constant value =>
      exact (@Word.layout_operand (.integer, toString value.toInt) rfl).symm
  | dice dice lexeme => exact (@Word.layout_operand (.dice, lexeme) rfl).symm
  | group inner =>
      have printed : (Atom.group inner).text = parenthesize inner.text := rfl
      rw [printed, inner.text_eq_layout, Atom.words, Word.layout_parenthesize]

end

theorem Word.shortest_sign {sign : Word} {operator : Operator}
    (kind : sign.1 = operator.kind) (spells : sign.1.Spells sign.2.toList) :
    sign.shortest = operator.word := by
  obtain ⟨_, lexeme⟩ := sign
  subst kind
  have text : lexeme = operator.text := by
    cases operator <;> exact String.toList_inj.mp spells
  rw [text]
  cases operator <;> rfl

/-- A number that has been read is printed in its shortest form. -/
theorem toString_constant {lexeme : String} (digits : Token.IsDigits lexeme.toList)
    (small : Numeral.value lexeme.toList < 2 ^ 63) :
    toString (Int64.ofNat (Numeral.value lexeme.toList)).toInt =
      String.ofList (Numeral.shortest lexeme.toList) := by
  rw [Int64.toInt_ofNat_of_lt small, ← Numeral.toDigits_value digits]
  rfl

mutual

/-- The words of a tree are the words that derive it, in their shortest forms. -/
theorem Expression.Derives.words_eq {words : List Word} {expression : Expression}
    (derives : Expression.Derives words expression) (spelled : Word.AllSpelled words) :
    expression.words = words.map Word.shortest := by
  cases derives with
  | term single => exact single.words_eq spelled
  | combine left joins right =>
      rw [Expression.words, left.words_eq spelled.left, right.words_eq spelled.right,
        ← Word.shortest_sign joins.kind_eq spelled.sign, List.map_append, List.map_cons]

theorem Term.Derives.words_eq {words : List Word} {term : Term}
    (derives : Term.Derives words term) (spelled : Word.AllSpelled words) :
    term.words = words.map Word.shortest := by
  cases derives with
  | atom single => exact single.words_eq spelled
  | combine left joins right =>
      rw [Term.words, left.words_eq spelled.left, right.words_eq spelled.right,
        ← Word.shortest_sign joins.kind_eq spelled.sign, List.map_append, List.map_cons]

theorem Atom.Derives.words_eq {words : List Word} {atom : Atom}
    (derives : Atom.Derives words atom) (spelled : Word.AllSpelled words) :
    atom.words = words.map Word.shortest := by
  cases derives with
  | @constant lexeme small =>
      have digits : Token.IsDigits lexeme.toList := spelled _ (List.mem_singleton_self _)
      rw [Atom.words, toString_constant digits small]
      rfl
  | dice _ => rfl
  | @group words opening closing inner derives =>
      have opens : opening = "(" :=
        String.toList_inj.mp (spelled (.openParen, opening) (by simp))
      have closes : closing = ")" :=
        String.toList_inj.mp (spelled (.closeParen, closing) (by simp))
      simp only [Atom.words, derives.words_eq spelled.inner, opens, closes,
        List.cons_append, List.map_cons, List.map_append, List.map_nil]
      rfl

end

/-- No character is white space. -/
def Text.NoSpace (text : List Char) : Prop :=
  ∀ character ∈ text, Text.isSpace character = false

theorem Text.noSpace_nil : Text.NoSpace [] :=
  List.forall_mem_nil _

theorem Text.noSpace_cons {character : Char} {text : List Char}
    (none : Text.isSpace character = false) (rest : Text.NoSpace text) :
    Text.NoSpace (character :: text) :=
  List.forall_mem_cons.mpr ⟨none, rest⟩

theorem Text.noSpace_append {first second : List Char} (firstNone : Text.NoSpace first)
    (secondNone : Text.NoSpace second) : Text.NoSpace (first ++ second) := by
  intro character member
  rcases List.mem_append.mp member with left | right
  · exact firstNone character left
  · exact secondNone character right

theorem Token.IsDigits.noSpace {text : List Char} (digits : Token.IsDigits text) :
    Text.NoSpace text := by
  intro character member
  have bounds := Token.isDigit_iff.mp (digits.2 character member)
  have lower : 48 ≤ character.toNat := bounds.1
  have upper : character.toNat ≤ 57 := bounds.2
  simp [Text.isSpace]
  omega

theorem Dice.noSpace_of_isMiddleWord {text : List Char}
    (middle : Dice.isMiddleWord text) : Text.NoSpace text := by
  have firstNone : ∀ letter ∈ ['m', 'M'], Text.isSpace letter = false :=
    forall_mem_cases rfl rfl
  have secondNone : ∀ letter ∈ ['i', 'I'], Text.isSpace letter = false :=
    forall_mem_cases rfl rfl
  obtain ⟨first, firstMember, second, secondMember, rfl⟩ := Dice.isMiddleWord_iff.mp middle
  exact Text.noSpace_cons (firstNone first firstMember)
    (Text.noSpace_cons (secondNone second secondMember) Text.noSpace_nil)

theorem Faces.noSpace_of_isFudgeWord {text : List Char}
    (fudge : Faces.isFudgeWord text) : Text.NoSpace text := by
  have none : ∀ letter ∈ ['f', 'F'], Text.isSpace letter = false :=
    forall_mem_cases rfl rfl
  obtain ⟨letter, member, rfl⟩ := Faces.isFudgeWord_iff.mp fudge
  exact Text.noSpace_cons (none letter member) Text.noSpace_nil

theorem Dice.noSpace_of_isDelimiter {delimiter : Char}
    (delimits : Dice.isDelimiter delimiter) : Text.NoSpace [delimiter] := by
  have none : ∀ letter ∈ ['d', 'D'], Text.isSpace letter = false :=
    forall_mem_cases rfl rfl
  exact Text.noSpace_cons (none delimiter (Dice.isDelimiter_iff.mp delimits))
    Text.noSpace_nil

/-- No token is spelled with white space. -/
theorem Token.Kind.Spells.noSpace {kind : Token.Kind} {text : List Char}
    (spells : kind.Spells text) : Text.NoSpace text := by
  cases kind with
  | integer => exact Token.IsDigits.noSpace spells
  | dice =>
      obtain ⟨count, delimiter, faces, rfl, counted, delimits, written⟩ := spells
      have countNone : Text.NoSpace count :=
        counted.elim Token.IsDigits.noSpace Dice.noSpace_of_isMiddleWord
      have facesNone : Text.NoSpace faces :=
        written.elim Token.IsDigits.noSpace Faces.noSpace_of_isFudgeWord
      have delimiterNone := Dice.noSpace_of_isDelimiter delimits
      exact Text.noSpace_append countNone (Text.noSpace_append delimiterNone facesNone)
  | _ =>
      cases spells
      exact Text.noSpace_cons rfl Text.noSpace_nil

/-- Printing what has been read from a text keeps the words of the text, with
numbers in their shortest form, and sets them in a row with blanks around
operators only. -/
theorem Expression.printing_keeps_words {text : String} {expression : Expression}
    (success : Expression.read text = .ok expression) :
    ∃ tokens printed, tokenize text = .ok tokens ∧
      tokenize expression.text = .ok printed ∧
      printed.map Token.word = tokens.map (fun token => token.word.shortest) ∧
      expression.text = Word.layout (printed.map Token.word) ∧
      ∀ token ∈ printed, Text.NoSpace token.lexeme.toList := by
  obtain ⟨tokens, cut, derives, nested⟩ := Expression.derives_of_read success
  have spelled := (Token.allSpelled_of_tokenize cut).words
  obtain ⟨printed, printedCut, written⟩ :=
    Expression.tokenize_text (derives.partsReadable spelled)
  refine ⟨tokens, printed, cut, printedCut, ?_, ?_, ?_⟩
  · rw [written, derives.words_eq spelled, List.map_map]
    rfl
  · rw [written, expression.text_eq_layout]
  · intro token member
    exact (Token.allSpelled_of_tokenize printedCut token member).noSpace

/-- Dice, a zero in front of a number, and parentheses that add nothing. -/
theorem padded_sum_keeps_words :
    let sum := Expression.combine (.term (.atom (.dice (.sum 3 (.numbered 6)) "3D06"))) .add
      (.atom (.group (.ofAtom (.constant 7))))
    Expression.read " 3D06+(007)" = .ok sum ∧ sum.text = "3D06 + (7)" ∧
      ∃ tokens printed, tokenize " 3D06+(007)" = .ok tokens ∧
        tokenize sum.text = .ok printed ∧
        printed.map Token.word = tokens.map (fun token => token.word.shortest) ∧
        sum.text = Word.layout (printed.map Token.word) ∧
        ∀ token ∈ printed, Text.NoSpace token.lexeme.toList := by
  intro sum
  have success : Expression.read " 3D06+(007)" = .ok sum := by
    decide +kernel
  exact ⟨success, by decide +kernel, Expression.printing_keeps_words success⟩

end DiceOdds
