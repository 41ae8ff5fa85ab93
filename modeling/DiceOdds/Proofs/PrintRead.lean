import DiceOdds.Expression.Printer
import DiceOdds.Proofs.ReaderAdequacy
import DiceOdds.Proofs.SignedWords

/-!
# Reading what has been printed

The canonical text of a tree is cut into the words of the tree: a blank keeps an
operator apart from its operands, and a group ends at its parenthesis, so no two
pieces grow together.  The words derive the tree as soon as each part of it can
be written, which is also what every tree that has been read satisfies.
-/

namespace DiceOdds

mutual

/-- Each operator of the tree stands where the grammar has it, constants are not
negative, and dice are what their text says. -/
def Expression.PartsReadable : Expression → Prop
  | .term single => single.PartsReadable
  | .combine lhs operator rhs =>
      lhs.PartsReadable ∧ (operator = .add ∨ operator = .sub) ∧ rhs.PartsReadable

/-- The parts of a term can be read. -/
def Term.PartsReadable : Term → Prop
  | .atom single => single.PartsReadable
  | .combine lhs operator rhs =>
      lhs.PartsReadable ∧ (operator = .mul ∨ operator = .div) ∧ rhs.PartsReadable

/-- The parts of an atom can be read. -/
def Atom.PartsReadable : Atom → Prop
  | .constant value => 0 ≤ value
  | .dice dice lexeme =>
      Dice.IsWritten lexeme.toList ∧ Dice.read lexeme.toList = .ok dice
  | .group inner => inner.PartsReadable

end

/-- The tree can be the result of reading: its parts can be read, and no more
than 64 pairs of parentheses are nested. -/
def Expression.Readable (expression : Expression) : Prop :=
  expression.PartsReadable ∧ expression.depth ≤ 64

/-- Every word is one of the spellings of its kind. -/
def Word.AllSpelled (words : List Word) : Prop :=
  ∀ word ∈ words, word.1.Spells word.2.toList

theorem Word.AllSpelled.left {left right : List Word}
    (spelled : Word.AllSpelled (left ++ right)) : Word.AllSpelled left :=
  fun word member => spelled word (List.mem_append_left _ member)

theorem Word.AllSpelled.right {left right : List Word} {sign : Word}
    (spelled : Word.AllSpelled (left ++ sign :: right)) : Word.AllSpelled right :=
  fun word member => spelled word (by simp [member])

theorem Word.AllSpelled.sign {left right : List Word} {sign : Word}
    (spelled : Word.AllSpelled (left ++ sign :: right)) :
    sign.1.Spells sign.2.toList :=
  spelled sign (by simp)

theorem Word.AllSpelled.inner {words : List Word} {opening closing : Word}
    (spelled : Word.AllSpelled (opening :: words ++ [closing])) :
    Word.AllSpelled words :=
  fun word member => spelled word (by simp [member])

theorem Token.AllSpelled.words {tokens : List Token}
    (spelled : Token.AllSpelled tokens) : Word.AllSpelled (tokens.map Token.word) := by
  intro word member
  obtain ⟨token, tokenMember, rfl⟩ := List.mem_map.mp member
  exact spelled token tokenMember

theorem Token.Kind.JoinsTerms.operator {kind : Token.Kind} {operator : Operator}
    (joins : kind.JoinsTerms operator) : operator = .add ∨ operator = .sub := by
  cases joins <;> simp

theorem Token.Kind.JoinsAtoms.operator {kind : Token.Kind} {operator : Operator}
    (joins : kind.JoinsAtoms operator) : operator = .mul ∨ operator = .div := by
  cases joins <;> simp

mutual

/-- The parts of a tree that words derive can be read. -/
theorem Expression.Derives.partsReadable {words : List Word} {expression : Expression}
    (derives : Expression.Derives words expression) (spelled : Word.AllSpelled words) :
    expression.PartsReadable := by
  cases derives with
  | term single => exact single.partsReadable spelled
  | combine left joins right =>
      exact ⟨left.partsReadable spelled.left, joins.operator,
        right.partsReadable spelled.right⟩

theorem Term.Derives.partsReadable {words : List Word} {term : Term}
    (derives : Term.Derives words term) (spelled : Word.AllSpelled words) :
    term.PartsReadable := by
  cases derives with
  | atom single => exact single.partsReadable spelled
  | combine left joins right =>
      exact ⟨left.partsReadable spelled.left, joins.operator,
        right.partsReadable spelled.right⟩

theorem Atom.Derives.partsReadable {words : List Word} {atom : Atom}
    (derives : Atom.Derives words atom) (spelled : Word.AllSpelled words) :
    atom.PartsReadable := by
  cases derives with
  | @constant lexeme small =>
      have word : isWord (Numeral.value lexeme.toList : Int) := ⟨by omega, by omega⟩
      have value : (Int64.ofNat (Numeral.value lexeme.toList)).toInt =
          Numeral.value lexeme.toList := toInt_ofInt_of_isWord word
      rw [Atom.PartsReadable, Int64.le_iff_toInt_le, value]
      exact Int.natCast_nonneg _
  | dice decoded => exact ⟨spelled _ (List.mem_singleton_self _), decoded⟩
  | group inner =>
      exact inner.partsReadable spelled.inner

end

theorem Expression.readable_of_read {text : String} {expression : Expression}
    (success : Expression.read text = .ok expression) : expression.Readable := by
  obtain ⟨tokens, cut, derives, nested⟩ := Expression.derives_of_read success
  exact ⟨derives.partsReadable (Token.allSpelled_of_tokenize cut).words,
    derives.depth_le nested⟩

/-- The kind of the sign of an operator. -/
def Operator.kind : Operator → Token.Kind
  | .add => .plus
  | .sub => .minus
  | .mul => .star
  | .div => .slash

/-- The word of the sign of an operator. -/
def Operator.word (operator : Operator) : Word :=
  (operator.kind, operator.text)

mutual

/-- The words of an expression as it is printed. -/
def Expression.words : Expression → List Word
  | .term single => single.words
  | .combine lhs operator rhs => lhs.words ++ operator.word :: rhs.words

/-- The words of a term as it is printed. -/
def Term.words : Term → List Word
  | .atom single => single.words
  | .combine lhs operator rhs => lhs.words ++ operator.word :: rhs.words

/-- The words of an atom as it is printed. -/
def Atom.words : Atom → List Word
  | .constant value => [(.integer, toString value.toInt)]
  | .dice _ lexeme => [(.dice, lexeme)]
  | .group inner => (.openParen, "(") :: inner.words ++ [(.closeParen, ")")]

end

theorem ofNat_toNat_of_nonneg {value : Int64} (nonnegative : 0 ≤ value) :
    Int64.ofNat value.toInt.toNat = value := by
  rw [Int64.le_iff_toInt_le] at nonnegative
  have natural : (value.toInt.toNat : Int) = value.toInt :=
    Int.toNat_of_nonneg nonnegative
  have word : isWord (value.toInt.toNat : Int) := by
    rw [natural]
    exact ⟨value.le_toInt, value.toInt_lt⟩
  exact (ofInt_eq_iff word).mpr natural

/-- A number that is not negative is printed in decimal digits. -/
theorem toList_toString_of_nonneg {value : Int64} (nonnegative : 0 ≤ value) :
    (toString value.toInt).toList = Nat.toDigits 10 value.toInt.toNat := by
  rw [Int64.le_iff_toInt_le] at nonnegative
  obtain ⟨number, natural⟩ := Int.eq_ofNat_of_zero_le nonnegative
  rw [natural, Int.toNat_natCast]
  exact Nat.toList_repr

theorem Operator.kind_joinsTerms {operator : Operator}
    (between : operator = .add ∨ operator = .sub) :
    operator.word.1.JoinsTerms operator := by
  rcases between with rfl | rfl
  · exact .plus
  · exact .minus

theorem Operator.kind_joinsAtoms {operator : Operator}
    (between : operator = .mul ∨ operator = .div) :
    operator.word.1.JoinsAtoms operator := by
  rcases between with rfl | rfl
  · exact .star
  · exact .slash

theorem Token.Kind.JoinsTerms.kind_eq {kind : Token.Kind} {operator : Operator}
    (joins : kind.JoinsTerms operator) : kind = operator.kind := by
  cases joins <;> rfl

theorem Token.Kind.JoinsAtoms.kind_eq {kind : Token.Kind} {operator : Operator}
    (joins : kind.JoinsAtoms operator) : kind = operator.kind := by
  cases joins <;> rfl

mutual

/-- A tree whose parts can be read is derived by its words. -/
theorem Expression.derives_words {expression : Expression}
    (readable : expression.PartsReadable) :
    Expression.Derives expression.words expression := by
  cases expression with
  | term single => exact .term (Term.derives_words readable)
  | combine lhs operator rhs =>
      obtain ⟨left, between, right⟩ := readable
      exact .combine (Expression.derives_words left) (Operator.kind_joinsTerms between)
        (Term.derives_words right)

theorem Term.derives_words {term : Term} (readable : term.PartsReadable) :
    Term.Derives term.words term := by
  cases term with
  | atom single => exact .atom (Atom.derives_words readable)
  | combine lhs operator rhs =>
      obtain ⟨left, between, right⟩ := readable
      exact .combine (Term.derives_words left) (Operator.kind_joinsAtoms between)
        (Atom.derives_words right)

theorem Atom.derives_words {atom : Atom} (readable : atom.PartsReadable) :
    Atom.Derives atom.words atom := by
  cases atom with
  | constant value =>
      have number : Numeral.value (toString value.toInt).toList = value.toInt.toNat := by
        rw [toList_toString_of_nonneg readable, Numeral.value_toDigits]
      have upper := value.toInt_lt
      have derived := @Atom.Derives.constant (toString value.toInt)
        (by rw [number]; omega)
      rw [number, ofNat_toNat_of_nonneg readable] at derived
      exact derived
  | dice dice lexeme => exact .dice readable.2
  | group inner => exact .group (Expression.derives_words readable)

end

/-- In front of anything that breaks it off, the text is cut into the words. -/
def Token.Scans (text : List Char) (words : List Word) : Prop :=
  ∀ rest, Token.Breaks rest → ∀ position, ∃ (tokens : List Token) (next : Nat),
    tokens.map Token.word = words ∧
      Token.scanFrom 0 position (text ++ rest) =
        tokens.map .token ++ Token.scanFrom 0 next rest

theorem Token.breaks_nil : Token.Breaks [] := by
  intro character member
  contradiction

theorem Token.breaks_blank (rest : List Char) : Token.Breaks (' ' :: rest) := by
  intro character member
  cases member
  decide

theorem Token.breaks_closeParen (rest : List Char) : Token.Breaks (')' :: rest) := by
  intro character member
  cases member
  decide

theorem Token.scanFrom_blank (rest : List Char) (position : Nat) :
    ∃ next, Token.scanFrom 0 position (' ' :: rest) = Token.scanFrom 0 next rest :=
  ⟨_, rfl⟩

theorem Token.Kind.Spells.exists_cons {kind : Token.Kind} {text : List Char}
    (spells : kind.Spells text) : ∃ first tail, text = first :: tail := by
  apply List.exists_cons_of_ne_nil
  rintro rfl
  cases kind with
  | dice =>
      obtain ⟨count, delimiter, faces, absurd, _⟩ := spells
      simp at absurd
  | integer => exact spells.1 rfl
  | _ => contradiction

/-- A spelling is cut into its word. -/
theorem Token.scans_word {lexeme : String} {kind : Token.Kind}
    (spells : kind.Spells lexeme.toList) : Token.Scans lexeme.toList [(kind, lexeme)] := by
  intro rest breaks position
  obtain ⟨first, tail, split⟩ := spells.exists_cons
  rw [split] at spells ⊢
  have scanned :=
    Token.scanFrom_of_longest? (Token.longest?_append spells breaks) position
  have whole : String.ofList (first :: tail) = lexeme := by
    rw [← split, String.ofList_toList]
  rw [whole] at scanned
  exact ⟨[⟨kind, lexeme, position⟩], _, rfl, scanned⟩

/-- A sign between two texts, with a blank on either side. -/
theorem Token.Scans.join {left right : List Char} {sign : String} {kind : Token.Kind}
    {leftWords rightWords : List Word} (leftScans : Token.Scans left leftWords)
    (spells : kind.Spells sign.toList) (rightScans : Token.Scans right rightWords) :
    Token.Scans (left ++ ' ' :: sign.toList ++ ' ' :: right)
      (leftWords ++ (kind, sign) :: rightWords) := by
  intro rest breaks position
  obtain ⟨leftTokens, afterLeft, rfl, leftScanned⟩ := leftScans
    (' ' :: sign.toList ++ ' ' :: right ++ rest) (Token.breaks_blank _) position
  obtain ⟨beforeSign, firstBlank⟩ :=
    Token.scanFrom_blank (sign.toList ++ ' ' :: right ++ rest) afterLeft
  obtain ⟨signTokens, afterSign, signWord, signScanned⟩ := Token.scans_word spells
    (' ' :: right ++ rest) (Token.breaks_blank _) beforeSign
  obtain ⟨beforeRight, secondBlank⟩ := Token.scanFrom_blank (right ++ rest) afterSign
  obtain ⟨rightTokens, next, rfl, rightScanned⟩ := rightScans rest breaks beforeRight
  refine ⟨leftTokens ++ signTokens ++ rightTokens, next, ?_, ?_⟩
  · simp [signWord]
  · simp only [List.append_assoc, List.cons_append, List.map_append] at *
    rw [leftScanned, firstBlank, signScanned, secondBlank, rightScanned]

/-- A text in parentheses. -/
theorem Token.Scans.parenthesize {inner : List Char} {words : List Word}
    (scans : Token.Scans inner words) :
    Token.Scans ('(' :: inner ++ [')'])
      ((.openParen, "(") :: words ++ [(.closeParen, ")")]) := by
  intro rest breaks position
  have opened := Token.scanFrom_of_longest?
    (Token.longest?_openParen ([] ++ (inner ++ ')' :: rest))) position
  obtain ⟨tokens, afterInner, rfl, innerScanned⟩ :=
    scans (')' :: rest) (Token.breaks_closeParen rest)
      (position + String.utf8Len ['('])
  have closes : Token.Kind.closeParen.Spells ")".toList := rfl
  obtain ⟨closeTokens, next, closeWord, closed⟩ :=
    Token.scans_word closes rest breaks afterInner
  refine ⟨⟨.openParen, "(", position⟩ :: tokens ++ closeTokens, next, ?_, ?_⟩
  · simp [closeWord, Token.word]
  · have closing : ")".toList ++ rest = ')' :: rest := rfl
    rw [closing] at closed
    simp only [List.append_assoc, List.cons_append, List.nil_append, List.map_append,
      List.map_cons] at *
    rw [opened, innerScanned, closed]

theorem Operator.spells (operator : Operator) :
    operator.kind.Spells operator.text.toList := by
  cases operator <;> rfl

theorem Operator.toList_join (operator : Operator) (lhs rhs : String) :
    (operator.join lhs rhs).toList =
      lhs.toList ++ ' ' :: operator.text.toList ++ ' ' :: rhs.toList := by
  simp [Operator.join, String.toList_append]

theorem toList_parenthesize (text : String) :
    (parenthesize text).toList = '(' :: text.toList ++ [')'] := by
  simp [DiceOdds.parenthesize, String.toList_append]

mutual

/-- The text of a tree whose parts can be read is cut into its words. -/
theorem Expression.scans_text {expression : Expression}
    (readable : expression.PartsReadable) :
    Token.Scans expression.text.toList expression.words := by
  cases expression with
  | term single => exact Term.scans_text readable
  | combine lhs operator rhs =>
      have printed : (Expression.combine lhs operator rhs).text =
          operator.join lhs.text rhs.text := rfl
      rw [printed, Operator.toList_join]
      exact (Expression.scans_text readable.1).join operator.spells
        (Term.scans_text readable.2.2)

theorem Term.scans_text {term : Term} (readable : term.PartsReadable) :
    Token.Scans term.text.toList term.words := by
  cases term with
  | atom single => exact Atom.scans_text readable
  | combine lhs operator rhs =>
      have printed : (Term.combine lhs operator rhs).text =
          operator.join lhs.text rhs.text := rfl
      rw [printed, Operator.toList_join]
      exact (Term.scans_text readable.1).join operator.spells
        (Atom.scans_text readable.2.2)

theorem Atom.scans_text {atom : Atom} (readable : atom.PartsReadable) :
    Token.Scans atom.text.toList atom.words := by
  cases atom with
  | constant value =>
      have digits : Token.IsDigits (toString value.toInt).toList := by
        rw [toList_toString_of_nonneg readable]
        exact Token.isDigits_toDigits _
      have spells : Token.Kind.integer.Spells (toString value.toInt).toList := digits
      exact Token.scans_word spells
  | dice dice lexeme =>
      have spells : Token.Kind.dice.Spells lexeme.toList := readable.1
      exact Token.scans_word spells
  | group inner =>
      have printed : (Atom.group inner).text = parenthesize inner.text := rfl
      rw [printed, toList_parenthesize]
      exact (Expression.scans_text readable).parenthesize

end

/-- The text of a tree whose parts can be read is cut into its words and nothing
else. -/
theorem Expression.tokenize_text {expression : Expression}
    (readable : expression.PartsReadable) :
    ∃ tokens, tokenize expression.text = .ok tokens ∧
      tokens.map Token.word = expression.words := by
  obtain ⟨tokens, next, written, scanned⟩ :=
    Expression.scans_text readable [] Token.breaks_nil 0
  refine ⟨tokens, ?_, written⟩
  rw [tokenize_eq_ok_iff, Token.scan]
  simpa [Token.scanFrom] using scanned

theorem Expression.read_text_of_readable {expression : Expression}
    (readable : expression.Readable) :
    Expression.read expression.text = .ok expression := by
  obtain ⟨tokens, cut, written⟩ := Expression.tokenize_text readable.1
  have derives := Expression.derives_words readable.1
  rw [← written] at derives
  exact Expression.read_of_derives cut derives readable.2

/-- Reading gives readable trees only, and among all trees just the readable ones
are read back from their texts. -/
theorem Expression.read_text_eq_ok_iff_readable :
    (∀ text expression, Expression.read text = .ok expression →
      expression.Readable) ∧
    ∀ expression : Expression, Expression.read expression.text = .ok expression ↔
      expression.Readable := by
  refine ⟨fun text expression => Expression.readable_of_read, ?_⟩
  intro expression
  exact ⟨Expression.readable_of_read, Expression.read_text_of_readable⟩

/-- Dice from which a number is subtracted, and the same with a negative one. -/
theorem dice_minus_number_readable :
    let reduced := fun number => Expression.combine
      (.term (.atom (.dice (.sum 2 (.numbered 6)) "2D6"))) .sub
      (.atom (.constant number))
    Expression.read "2D6-3" = .ok (reduced 3) ∧ (reduced 3).Readable ∧
      (reduced 3).text = "2D6 - 3" ∧
      Expression.read (reduced 3).text = .ok (reduced 3) ∧
      ¬ Expression.read (reduced (-3)).text = .ok (reduced (-3)) := by
  intro reduced
  have success : Expression.read "2D6-3" = .ok (reduced 3) := by
    decide +kernel
  obtain ⟨readable, readBack⟩ := Expression.read_text_eq_ok_iff_readable
  have reducedReadable := readable _ _ success
  refine ⟨success, reducedReadable, by decide +kernel,
    (readBack _).mpr reducedReadable, ?_⟩
  intro negative
  have constant : (0 : Int64) ≤ -3 := ((readBack _).mp negative).1.2.2
  contradiction

end DiceOdds
