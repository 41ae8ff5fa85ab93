import DiceOdds.Proofs.Decimals
import Mathlib.Data.List.TakeWhile
import Mathlib.Data.String.Basic

/-!
# How tokens are spelled

A place of a text begins a token exactly when a spelling of some kind begins
there, and the token takes the whole spelling as long as the text behind it
cannot be read as part of it.
-/

namespace DiceOdds

/-- Faces as they may be written behind the letter d. -/
def Faces.IsWritten (text : List Char) : Prop :=
  Token.IsDigits text ∨ Faces.isFudgeWord text

/-- Dice as they may be written: digits or the word for the middle, the letter d
and faces. -/
def Dice.IsWritten (text : List Char) : Prop :=
  ∃ count delimiter faces, text = count ++ delimiter :: faces ∧
    (Token.IsDigits count ∨ Dice.isMiddleWord count) ∧
    Dice.isDelimiter delimiter ∧ Faces.IsWritten faces

/-- The texts of the tokens of a kind. -/
def Token.Kind.Spells : Token.Kind → List Char → Prop
  | .dice, text => Dice.IsWritten text
  | .integer, text => Token.IsDigits text
  | .plus, text => text = ['+']
  | .minus, text => text = ['-']
  | .star, text => text = ['*']
  | .slash, text => text = ['/']
  | .openParen, text => text = ['(']
  | .closeParen, text => text = [')']

/-- What holds of a letter in both cases holds of both cases. -/
theorem forall_mem_cases {small capital : Char} {holds : Char → Prop}
    (ofSmall : holds small) (ofCapital : holds capital) :
    ∀ letter ∈ [small, capital], holds letter := by
  intro letter member
  rcases List.mem_pair.mp member with rfl | rfl
  · exact ofSmall
  · exact ofCapital

theorem Dice.isDelimiter_iff {character : Char} :
    Dice.isDelimiter character ↔ character ∈ ['d', 'D'] := by
  simp [Dice.isDelimiter]

theorem Dice.isMiddleWord_iff {text : List Char} :
    Dice.isMiddleWord text ↔
      ∃ first ∈ ['m', 'M'], ∃ second ∈ ['i', 'I'], text = [first, second] := by
  unfold Dice.isMiddleWord
  split
  · rename_i first second
    simp only [Bool.and_eq_true, Bool.or_eq_true, beq_iff_eq]
    constructor
    · intro ⟨firstIs, secondIs⟩
      exact ⟨first, by simpa using firstIs, second, by simpa using secondIs, rfl⟩
    · rintro ⟨_, firstMember, _, secondMember, same⟩
      cases same
      exact ⟨by simpa using firstMember, by simpa using secondMember⟩
  · rename_i other
    constructor
    · intro absurd
      contradiction
    · rintro ⟨first, _, second, _, rfl⟩
      exact (other first second rfl).elim

theorem Faces.isFudgeWord_iff {text : List Char} :
    Faces.isFudgeWord text ↔ ∃ letter ∈ ['f', 'F'], text = [letter] := by
  unfold Faces.isFudgeWord
  split
  · simp
  · rename_i other
    constructor
    · intro absurd
      contradiction
    · rintro ⟨letter, _, rfl⟩
      exact (other letter rfl).elim

theorem take_takeWhile (text : List Char) (belongs : Char → Bool) :
    text.take (text.takeWhile belongs).length = text.takeWhile belongs :=
  (List.prefix_iff_eq_take.mp (List.takeWhile_prefix belongs)).symm

theorem Token.isDigits_takeWhile {first : Char} (digit : Token.isDigit first)
    (rest : List Char) :
    Token.IsDigits (first :: rest.takeWhile Token.isDigit) := by
  refine ⟨List.cons_ne_nil _ _, ?_⟩
  rw [List.forall_mem_cons]
  exact ⟨digit, fun character member => List.mem_takeWhile_imp member⟩

theorem Token.take_facesLength {text : List Char} {length : Nat}
    (found : Token.facesLength text = length + 1) :
    ∃ delimiter faces, text.take (length + 1) = delimiter :: faces ∧
      Dice.isDelimiter delimiter ∧ Faces.IsWritten faces := by
  unfold Token.facesLength at found
  split at found
  · rename_i delimiter face rest
    by_cases delimits : Dice.isDelimiter delimiter
    · simp only [delimits, Bool.not_true, Bool.false_eq_true, if_false] at found
      by_cases fudge : Faces.isFudgeWord [face]
      · rw [if_pos fudge] at found
        obtain rfl : length = 1 := by omega
        exact ⟨delimiter, [face], by simp, delimits, .inr fudge⟩
      · rw [if_neg fudge] at found
        by_cases digit : Token.isDigit face
        · rw [if_pos digit] at found
          obtain rfl : length = 1 + (rest.takeWhile Token.isDigit).length := by omega
          refine ⟨delimiter, face :: rest.takeWhile Token.isDigit, ?_, delimits,
            .inl (Token.isDigits_takeWhile digit rest)⟩
          rw [List.take_succ_cons, Nat.add_comm, List.take_succ_cons, take_takeWhile]
        · rw [if_neg digit] at found
          omega
    · simp [delimits] at found
  · omega

/-- What the longest token takes is a spelling of its kind. -/
theorem Token.spells_of_longest? {first : Char} {rest : List Char}
    {kind : Token.Kind} {length : Nat}
    (found : Token.longest? first rest = some (kind, length)) :
    kind.Spells (first :: rest.take length) := by
  unfold Token.longest? at found
  by_cases digit : Token.isDigit first
  · have digits := Token.isDigits_takeWhile digit rest
    simp only [digit, if_true] at found
    cases faces : Token.facesLength
        (rest.drop (rest.takeWhile Token.isDigit).length) with
    | zero =>
        simp only [faces] at found
        cases found
        rw [take_takeWhile]
        exact digits
    | succ facesLength =>
        simp only [faces] at found
        cases found
        obtain ⟨delimiter, facesText, taken, delimits, written⟩ :=
          Token.take_facesLength faces
        refine ⟨_, delimiter, facesText, ?_, .inl digits, delimits, written⟩
        rw [List.take_add, take_takeWhile, taken]
        rfl
  · simp only [digit, Bool.false_eq_true, if_false] at found
    by_cases middle : Dice.isMiddleWord (first :: rest.take 1)
    · rw [if_pos middle] at found
      cases faces : Token.facesLength (rest.drop 1) with
      | zero =>
          simp only [faces] at found
          contradiction
      | succ facesLength =>
          simp only [faces] at found
          cases found
          obtain ⟨delimiter, facesText, taken, delimits, written⟩ :=
            Token.take_facesLength faces
          refine ⟨_, delimiter, facesText, ?_, .inr middle, delimits, written⟩
          rw [List.take_add, taken]
          rfl
    · rw [if_neg middle] at found
      split at found <;> cases found <;> rfl

/-- Every token that is scanned spells a word of its kind. -/
theorem Token.spells_of_mem_scanFrom {skip position : Nat} {text : List Char}
    {word : Token} (member : .token word ∈ Token.scanFrom skip position text) :
    word.kind.Spells word.lexeme.toList := by
  induction text generalizing skip position with
  | nil => contradiction
  | cons first rest induction =>
      cases skip with
      | succ skip => exact induction member
      | zero =>
          by_cases blank : Token.isBlank first
          · simp only [Token.scanFrom, blank, if_true] at member
            exact induction member
          · simp only [Token.scanFrom, blank, Bool.false_eq_true, if_false] at member
            cases found : Token.longest? first rest with
            | none =>
                simp only [found, List.mem_cons, reduceCtorEq, false_or] at member
                exact induction member
            | some longest =>
                simp only [found, List.mem_cons, Token.Piece.token.injEq] at member
                rcases member with rfl | later
                · rw [String.toList_ofList]
                  exact Token.spells_of_longest? found
                · exact induction later

/-- What cannot be read as a part of the token before it. -/
def Token.Breaks (rest : List Char) : Prop :=
  ∀ character ∈ rest.head?,
    Token.isDigit character = false ∧ Dice.isDelimiter character = false

theorem Token.takeWhile_of_breaks {rest : List Char} (breaks : Token.Breaks rest) :
    rest.takeWhile Token.isDigit = [] := by
  cases rest with
  | nil => rfl
  | cons first rest => simp [(breaks first rfl).1]

theorem Token.takeWhile_append {digits rest : List Char}
    (run : ∀ character ∈ digits, Token.isDigit character)
    (stops : rest.takeWhile Token.isDigit = []) :
    (digits ++ rest).takeWhile Token.isDigit = digits := by
  rw [List.takeWhile_append_of_pos run, stops, List.append_nil]

theorem Token.facesLength_of_breaks {rest : List Char} (breaks : Token.Breaks rest) :
    Token.facesLength rest = 0 := by
  unfold Token.facesLength
  split
  · rename_i delimiter face rest
    rw [(breaks delimiter rfl).2]
    rfl
  · rfl

theorem Token.isFudgeWord_of_isDigit {face : Char} (digit : Token.isDigit face) :
    Faces.isFudgeWord [face] = false := by
  have noDigit : ∀ letter ∈ ['f', 'F'], Token.isDigit letter = false :=
    forall_mem_cases rfl rfl
  by_contra fudge
  rw [Bool.not_eq_false, Faces.isFudgeWord_iff] at fudge
  obtain ⟨letter, member, same⟩ := fudge
  rw [List.singleton_inj.mp same, noDigit letter member] at digit
  exact Bool.false_ne_true digit

theorem Token.facesLength_append {delimiter : Char} {faces rest : List Char}
    (delimits : Dice.isDelimiter delimiter) (written : Faces.IsWritten faces)
    (breaks : Token.Breaks rest) :
    Token.facesLength (delimiter :: faces ++ rest) = faces.length + 1 := by
  rcases written with ⟨filled, run⟩ | fudge
  · obtain ⟨face, others, rfl⟩ := List.exists_cons_of_ne_nil filled
    rw [List.forall_mem_cons] at run
    have noFudge := Token.isFudgeWord_of_isDigit run.1
    simp only [List.cons_append, Token.facesLength, delimits, noFudge, run.1,
      Token.takeWhile_append run.2 (Token.takeWhile_of_breaks breaks)]
    simp
    omega
  · obtain ⟨letter, _, rfl⟩ := Faces.isFudgeWord_iff.mp fudge
    simp only [List.cons_append, List.nil_append, Token.facesLength, delimits, fudge]
    rfl

theorem Token.isDigit_of_isDelimiter {character : Char}
    (delimits : Dice.isDelimiter character) : Token.isDigit character = false := by
  have noDigit : ∀ letter ∈ ['d', 'D'], Token.isDigit letter = false :=
    forall_mem_cases rfl rfl
  exact noDigit character (Dice.isDelimiter_iff.mp delimits)

theorem Dice.exists_of_isMiddleWord {text : List Char}
    (middle : Dice.isMiddleWord text) :
    ∃ first second, text = [first, second] ∧ Token.isDigit first = false := by
  have noDigit : ∀ letter ∈ ['m', 'M'], Token.isDigit letter = false :=
    forall_mem_cases rfl rfl
  obtain ⟨first, firstMember, second, _, rfl⟩ := Dice.isMiddleWord_iff.mp middle
  exact ⟨first, second, rfl, noDigit first firstMember⟩

/-- Dice whose first character is known begin with a count or with the word for the
middle. -/
theorem Dice.IsWritten.exists_tail {first : Char} {tail : List Char}
    (written : Dice.IsWritten (first :: tail)) :
    ∃ count delimiter faces, tail = count ++ delimiter :: faces ∧
      (Token.IsDigits (first :: count) ∨ Dice.isMiddleWord (first :: count)) ∧
      Dice.isDelimiter delimiter ∧ Faces.IsWritten faces := by
  obtain ⟨front, delimiter, faces, split, counted, delimits, facesWritten⟩ := written
  cases front with
  | nil => exact counted.elim (fun run => (run.1 rfl).elim) nofun
  | cons head count =>
      rw [List.cons_append, List.cons.injEq] at split
      obtain ⟨rfl, rfl⟩ := split
      exact ⟨count, delimiter, faces, rfl, counted, delimits, facesWritten⟩

/-- Faces behind a count belong to the same token. -/
theorem Token.longest?_of_counted {first delimiter : Char} {count rest : List Char}
    {length : Nat}
    (counted : Token.IsDigits (first :: count) ∨ Dice.isMiddleWord (first :: count))
    (delimits : Dice.isDelimiter delimiter)
    (faces : Token.facesLength (delimiter :: rest) = length + 1) :
    Token.longest? first (count ++ delimiter :: rest) =
      some (.dice, count.length + (length + 1)) := by
  rcases counted with ⟨_, run⟩ | middle
  · rw [List.forall_mem_cons] at run
    have stops : (delimiter :: rest).takeWhile Token.isDigit = [] := by
      simp [Token.isDigit_of_isDelimiter delimits]
    simp only [Token.longest?, run.1, if_true, Token.takeWhile_append run.2 stops,
      List.drop_left, faces]
  · obtain ⟨letter, second, same, noDigit⟩ := Dice.exists_of_isMiddleWord middle
    cases same
    simp only [Token.longest?, noDigit, Bool.false_eq_true, if_false, List.cons_append,
      List.nil_append, List.take_succ_cons, List.take_zero, middle, if_true,
      List.drop_succ_cons, List.drop_zero, faces, List.length_cons, List.length_nil]

/-- A spelling is taken as a whole when the text behind it breaks it off. -/
theorem Token.longest?_append {first : Char} {tail rest : List Char}
    {kind : Token.Kind} (spells : kind.Spells (first :: tail))
    (breaks : Token.Breaks rest) :
    Token.longest? first (tail ++ rest) = some (kind, tail.length) := by
  cases kind with
  | integer =>
      have run := spells.2
      rw [List.forall_mem_cons] at run
      have digits := Token.takeWhile_append run.2 (Token.takeWhile_of_breaks breaks)
      simp only [Token.longest?, run.1, if_true, digits, List.drop_left,
        Token.facesLength_of_breaks breaks]
  | dice =>
      obtain ⟨count, delimiter, faces, rfl, counted, delimits, written⟩ :=
        Dice.IsWritten.exists_tail spells
      have length := Token.facesLength_append delimits written breaks
      rw [List.append_assoc, List.length_append]
      exact Token.longest?_of_counted counted delimits length
  | _ =>
      obtain ⟨rfl, rfl⟩ := List.cons.inj spells
      cases rest <;> rfl

theorem Token.longest?_openParen (rest : List Char) :
    Token.longest? '(' rest = some (.openParen, 0) := by
  cases rest <;> rfl

theorem Token.longest?_of_isBlank {first : Char} (blank : Token.isBlank first)
    (rest : List Char) : Token.longest? first rest = none := by
  simp only [Token.isBlank, Bool.or_eq_true, beq_iff_eq] at blank
  rcases blank with ((rfl | rfl) | rfl) | rfl <;> cases rest <;> rfl

theorem Token.scanFrom_skip (text rest : List Char) (position : Nat) :
    Token.scanFrom text.length position (text ++ rest) =
      Token.scanFrom 0 (position + String.utf8Len text) rest := by
  induction text generalizing position with
  | nil => rfl
  | cons first text induction =>
      have later := induction (position + first.utf8Size)
      rw [Nat.add_assoc, Nat.add_comm first.utf8Size, ← String.utf8Len_cons] at later
      exact later

/-- A token found at the start of a text is scanned first. -/
theorem Token.scanFrom_of_longest? {first : Char} {tail rest : List Char}
    {kind : Token.Kind}
    (found : Token.longest? first (tail ++ rest) = some (kind, tail.length))
    (position : Nat) :
    Token.scanFrom 0 position (first :: tail ++ rest) =
      .token ⟨kind, String.ofList (first :: tail), position⟩ ::
        Token.scanFrom 0 (position + String.utf8Len (first :: tail)) rest := by
  have noBlank : Token.isBlank first = false := by
    by_contra blank
    rw [Bool.not_eq_false] at blank
    rw [Token.longest?_of_isBlank blank] at found
    contradiction
  have skipped := Token.scanFrom_skip tail rest (position + first.utf8Size)
  rw [Nat.add_assoc, Nat.add_comm first.utf8Size, ← String.utf8Len_cons] at skipped
  simp only [List.cons_append, Token.scanFrom, noBlank, Bool.false_eq_true, if_false,
    found, List.take_left, skipped]

end DiceOdds
