import DiceOdds.Proofs.PrintRead

/-!
# The texts of dice

Dice are read from a count or the word for the middle of three, a letter d and faces.  A
number may have a plus sign and zeros in front, and a letter may be in either case, but
nothing else is read.  The text of dice is such a text and a single token, from which the
dice are read again; printing what has been read from any other text only takes away the
sign and the zeros and puts the letters into one case.
-/

namespace DiceOdds

/-- A numeral stands for a count: digits that have its value, with or without a plus
sign. -/
inductive Numeral.Denotes : List Char → UInt64 → Prop where
  | plain {digits : List Char} {number : UInt64} :
      Token.IsDigits digits → Numeral.value digits = number.toNat →
      Denotes digits number
  | signed {digits : List Char} {number : UInt64} :
      Token.IsDigits digits → Numeral.value digits = number.toNat →
      Denotes ('+' :: digits) number

/-- A text stands for faces. -/
inductive Faces.Denotes : List Char → Faces → Prop where
  | numbered {text : List Char} {sides : UInt64} :
      Numeral.Denotes text sides → Denotes text (.numbered sides)
  | fudge {letter : Char} : letter ∈ ['f', 'F'] → Denotes [letter] .fudge

/-- A text stands for dice. -/
inductive Dice.Denotes : List Char → Dice → Prop where
  | sum {count text : List Char} {number : UInt64} {delimiter : Char} {faces : Faces} :
      Numeral.Denotes count number → delimiter ∈ ['d', 'D'] →
      Faces.Denotes text faces →
      Denotes (count ++ delimiter :: text) (.sum number faces)
  | middle {first second delimiter : Char} {text : List Char} {faces : Faces} :
      first ∈ ['m', 'M'] → second ∈ ['i', 'I'] → delimiter ∈ ['d', 'D'] →
      Faces.Denotes text faces →
      Denotes ([first, second] ++ delimiter :: text) (.middle faces)

section Numerals

variable {text digits : List Char} {maximum value : Nat} {number : UInt64}

theorem Numeral.isDigit_of_foldlM_extend {start : Nat}
    (success : text.foldlM (Numeral.extend maximum) start = .ok value) :
    ∀ character ∈ text, Token.isDigit character := by
  induction text generalizing start with
  | nil => exact List.forall_mem_nil _
  | cons character text induction =>
      rw [List.foldlM_cons] at success
      obtain ⟨next, extended, rest⟩ := exists_of_bind_ok success
      refine List.forall_mem_cons.mpr ⟨?_, induction rest⟩
      unfold Numeral.extend at extended
      split at extended
      · contradiction
      · rename_i digit found
        rw [Token.isDigit, found, Option.isSome_some]

theorem Numeral.dropSign_cases (filled : text ≠ []) :
    Numeral.dropSign text ≠ [] ∧
      (text = Numeral.dropSign text ∨ text = '+' :: Numeral.dropSign text) := by
  unfold Numeral.dropSign
  split
  · exact ⟨List.cons_ne_nil _ _, .inr rfl⟩
  · exact ⟨filled, .inl rfl⟩

theorem Numeral.dropSign_signed (run : Token.IsDigits digits) :
    Numeral.dropSign ('+' :: digits) = digits := by
  obtain ⟨first, rest, rfl⟩ := List.exists_cons_of_ne_nil run.1
  rfl

theorem Numeral.read_signed (run : Token.IsDigits digits) :
    Numeral.read maximum ('+' :: digits) = Numeral.read maximum digits := by
  have filled : digits.isEmpty = false := List.isEmpty_eq_false_iff.mpr run.1
  simp only [Numeral.read, List.isEmpty_cons, filled, Numeral.dropSign_signed run,
    Numeral.dropSign_of_digits run]

/-- A number is read from digits that have its value, with or without a plus sign, unless
it passes the bound. -/
theorem Numeral.read_eq_ok_iff :
    Numeral.read maximum text = .ok value ↔
      ∃ digits, (text = digits ∨ text = '+' :: digits) ∧ Token.IsDigits digits ∧
        Numeral.value digits = value ∧ value ≤ maximum := by
  constructor
  · intro success
    by_cases empty : text.isEmpty
    · rw [Numeral.read, if_pos empty] at success
      contradiction
    · rw [Numeral.read, if_neg empty] at success
      have run := Numeral.isDigit_of_foldlM_extend success
      rw [Bool.not_eq_true, List.isEmpty_eq_false_iff] at empty
      obtain ⟨filled, shape⟩ := Numeral.dropSign_cases empty
      refine ⟨_, shape, ⟨filled, run⟩, ?_⟩
      rw [Numeral.foldlM_extend run (Nat.zero_le _)] at success
      by_cases fits : Numeral.valueFrom 0 (Numeral.dropSign text) ≤ maximum
      · rw [if_pos fits] at success
        cases success
        exact ⟨rfl, fits⟩
      · rw [if_neg fits] at success
        contradiction
  · rintro ⟨digits, rfl | rfl, run, rfl, fits⟩
    · rw [Numeral.read_of_digits run, if_pos fits]
    · rw [Numeral.read_signed run, Numeral.read_of_digits run, if_pos fits]

theorem Numeral.readCount_eq_ok_iff :
    Numeral.readCount text = .ok number ↔ Numeral.Denotes text number := by
  constructor
  · intro success
    cases found : Numeral.read (2 ^ 64 - 1) text with
    | error fault =>
        rw [Numeral.readCount, found] at success
        contradiction
    | ok value =>
        rw [Numeral.readCount, found] at success
        cases success
        obtain ⟨digits, shape, run, rfl, fits⟩ := Numeral.read_eq_ok_iff.mp found
        have same : Numeral.value digits =
            (UInt64.ofNat (Numeral.value digits)).toNat :=
          (UInt64.toNat_ofNat_of_lt' (Nat.lt_of_le_pred (by decide) fits)).symm
        rcases shape with rfl | rfl
        · exact .plain run same
        · exact .signed run same
  · intro denotes
    have found : Numeral.read (2 ^ 64 - 1) text = .ok number.toNat := by
      rw [Numeral.read_eq_ok_iff]
      have fits := Nat.le_pred_of_lt number.toNat_lt
      cases denotes with
      | plain run same => exact ⟨_, .inl rfl, run, same, fits⟩
      | signed run same => exact ⟨_, .inr rfl, run, same, fits⟩
    rw [Numeral.readCount, found, Except.map, UInt64.ofNat_toNat]

/-- Every character may stand in a numeral. -/
def Numeral.Unlettered (text : List Char) : Prop :=
  ∀ character ∈ text, Token.isDigit character ∨ character = '+'

theorem Token.IsDigits.unlettered (run : Token.IsDigits digits) :
    Numeral.Unlettered digits :=
  fun character member => .inl (run.2 character member)

theorem Numeral.Denotes.unlettered (denotes : Numeral.Denotes text number) :
    Numeral.Unlettered text := by
  cases denotes with
  | plain run _ => exact run.unlettered
  | signed run _ => exact List.forall_mem_cons.mpr ⟨.inr rfl, run.unlettered⟩

section Letters

variable (unlettered : Numeral.Unlettered text)

include unlettered

theorem Numeral.Unlettered.undelimited :
    ∀ character ∈ text, Dice.isDelimiter character = false := by
  have foreign : ∀ letter ∈ ['d', 'D'], ¬ (Token.isDigit letter ∨ letter = '+') :=
    forall_mem_cases (by decide) (by decide)
  intro character member
  rw [← Bool.not_eq_true, Dice.isDelimiter_iff]
  exact fun letter => foreign character letter (unlettered character member)

theorem Numeral.Unlettered.not_isMiddleWord : ¬ Dice.isMiddleWord text := by
  have foreign : ∀ letter ∈ ['m', 'M'], ¬ (Token.isDigit letter ∨ letter = '+') :=
    forall_mem_cases (by decide) (by decide)
  rw [Dice.isMiddleWord_iff]
  rintro ⟨first, letter, second, _, rfl⟩
  exact foreign first letter (unlettered first List.mem_cons_self)

theorem Numeral.Unlettered.not_isFudgeWord : ¬ Faces.isFudgeWord text := by
  have foreign : ∀ letter ∈ ['f', 'F'], ¬ (Token.isDigit letter ∨ letter = '+') :=
    forall_mem_cases (by decide) (by decide)
  rw [Faces.isFudgeWord_iff]
  rintro ⟨letter, member, rfl⟩
  exact foreign letter member (unlettered letter List.mem_cons_self)

end Letters

theorem Dice.undelimited_of_isMiddleWord (middle : Dice.isMiddleWord text) :
    ∀ character ∈ text, Dice.isDelimiter character = false := by
  have firstPasses : ∀ letter ∈ ['m', 'M'], Dice.isDelimiter letter = false :=
    forall_mem_cases rfl rfl
  have secondPasses : ∀ letter ∈ ['i', 'I'], Dice.isDelimiter letter = false :=
    forall_mem_cases rfl rfl
  obtain ⟨first, firstMember, second, secondMember, rfl⟩ := Dice.isMiddleWord_iff.mp middle
  intro character member
  rcases List.mem_pair.mp member with rfl | rfl
  · exact firstPasses character firstMember
  · exact secondPasses character secondMember

end Numerals

section Reading

variable {text : List Char}

theorem Faces.read_eq_ok_iff {faces : Faces} :
    Faces.read text = .ok faces ↔ Faces.Denotes text faces := by
  constructor
  · intro success
    unfold Faces.read at success
    split at success
    · rename_i fudge
      cases success
      obtain ⟨letter, member, rfl⟩ := Faces.isFudgeWord_iff.mp fudge
      exact .fudge member
    · cases found : Numeral.readCount text with
      | error fault =>
          rw [found] at success
          contradiction
      | ok sides =>
          rw [found] at success
          cases success
          exact .numbered (Numeral.readCount_eq_ok_iff.mp found)
  · intro denotes
    cases denotes with
    | fudge member => exact if_pos (Faces.isFudgeWord_iff.mpr ⟨_, member, rfl⟩)
    | numbered numeral =>
        rw [Faces.read, if_neg numeral.unlettered.not_isFudgeWord,
          Numeral.readCount_eq_ok_iff.mpr numeral]
        rfl

section Splitting

variable {count faces : List Char} {delimiter : Char}

theorem Dice.takeWhile_split
    (undelimited : ∀ character ∈ count, Dice.isDelimiter character = false)
    (delimits : Dice.isDelimiter delimiter) :
    (count ++ delimiter :: faces).takeWhile
      (fun character => !Dice.isDelimiter character) = count := by
  have passes : ∀ character ∈ count, (!Dice.isDelimiter character) = true := by
    intro character member
    rw [undelimited character member, Bool.not_false]
  simp [List.takeWhile_append_of_pos passes, delimits]

theorem Dice.dropWhile_split
    (undelimited : ∀ character ∈ count, Dice.isDelimiter character = false)
    (delimits : Dice.isDelimiter delimiter) :
    (count ++ delimiter :: faces).dropWhile
      (fun character => !Dice.isDelimiter character) = delimiter :: faces := by
  have passes : ∀ character ∈ count, (!Dice.isDelimiter character) = true := by
    intro character member
    rw [undelimited character member, Bool.not_false]
  simp [List.dropWhile_append_of_pos passes, delimits]

/-- Dice are read in two parts, split at the first letter d; the faces come first. -/
theorem Dice.read_split
    (undelimited : ∀ character ∈ count, Dice.isDelimiter character = false)
    (delimits : Dice.isDelimiter delimiter) :
    Dice.read (count ++ delimiter :: faces) = (do
      let kind ← (Faces.read faces).mapError .invalidFaces
      if Dice.isMiddleWord count then
        return .middle kind
      else
        let number ← (Numeral.readCount count).mapError .invalidCount
        return .sum number kind) := by
  simp only [Dice.read, Dice.takeWhile_split undelimited delimits,
    Dice.dropWhile_split undelimited delimits]

end Splitting

theorem Dice.exists_split {dice : Dice} (success : Dice.read text = .ok dice) :
    ∃ count delimiter faces, text = count ++ delimiter :: faces ∧
      (∀ character ∈ count, Dice.isDelimiter character = false) ∧
      Dice.isDelimiter delimiter := by
  have whole := @List.takeWhile_append_dropWhile _
    (fun character => !Dice.isDelimiter character) text
  have stops := List.head?_dropWhile_not (fun character => !Dice.isDelimiter character) text
  unfold Dice.read at success
  split at success
  · contradiction
  · rename_i delimiter faces found
    rw [found] at whole stops
    refine ⟨_, delimiter, faces, whole.symm, ?_, by simpa using stops⟩
    intro character member
    simpa using List.mem_takeWhile_imp member

/-- Dice are read from the texts that stand for them, and from no others. -/
theorem Dice.read_eq_ok_iff {dice : Dice} :
    Dice.read text = .ok dice ↔ Dice.Denotes text dice := by
  constructor
  · intro success
    obtain ⟨count, delimiter, faces, rfl, undelimited, delimits⟩ := Dice.exists_split success
    have delimiterMember := Dice.isDelimiter_iff.mp delimits
    rw [Dice.read_split undelimited delimits] at success
    obtain ⟨kind, facesRead, rest⟩ := exists_of_bind_ok success
    have facesDenote := Faces.read_eq_ok_iff.mp (ok_of_mapError_ok facesRead)
    split at rest
    · rename_i middle
      cases rest
      obtain ⟨first, firstMember, second, secondMember, rfl⟩ :=
        Dice.isMiddleWord_iff.mp middle
      exact .middle firstMember secondMember delimiterMember facesDenote
    · obtain ⟨number, countRead, done⟩ := exists_of_bind_ok rest
      cases done
      have countDenotes := Numeral.readCount_eq_ok_iff.mp (ok_of_mapError_ok countRead)
      exact .sum countDenotes delimiterMember facesDenote
  · intro denotes
    cases denotes with
    | sum numeral delimiterMember facesDenote =>
        have delimits := Dice.isDelimiter_iff.mpr delimiterMember
        rw [Dice.read_split numeral.unlettered.undelimited delimits,
          Faces.read_eq_ok_iff.mpr facesDenote, Numeral.readCount_eq_ok_iff.mpr numeral]
        simp only [Except.mapError, ok_bind, if_neg numeral.unlettered.not_isMiddleWord]
        rfl
    | @middle first second delimiter faces kind firstMember secondMember delimiterMember
        facesDenote =>
        have middle : Dice.isMiddleWord [first, second] :=
          Dice.isMiddleWord_iff.mpr ⟨first, firstMember, second, secondMember, rfl⟩
        have delimits := Dice.isDelimiter_iff.mpr delimiterMember
        rw [Dice.read_split (Dice.undelimited_of_isMiddleWord middle) delimits,
          Faces.read_eq_ok_iff.mpr facesDenote]
        simp only [Except.mapError, ok_bind, if_pos middle]
        rfl

end Reading

section Printing

variable {text : List Char} {number : UInt64} {faces : Faces} {dice : Dice}

/-- A text without a plus sign in front and without superfluous zeros. -/
def Numeral.bare (text : List Char) : List Char :=
  Numeral.shortest (Numeral.dropSign text)

theorem Token.toLower_of_isDigit {character : Char} (digit : Token.isDigit character) :
    character.toLower = character := by
  have greatest : character.toNat ≤ 57 := (Token.isDigit_iff.mp digit).2
  apply dif_neg
  rintro ⟨letter, _⟩
  have capital : 65 ≤ character.toNat := letter
  omega

theorem Token.toUpper_of_isDigit {character : Char} (digit : Token.isDigit character) :
    character.toUpper = character := by
  have greatest : character.toNat ≤ 57 := (Token.isDigit_iff.mp digit).2
  apply dif_neg
  rintro ⟨letter, _⟩
  have small : 97 ≤ character.toNat := letter
  omega

theorem Numeral.Denotes.bare_eq (denotes : Numeral.Denotes text number) :
    Numeral.bare text = Nat.toDigits 10 number.toNat := by
  cases denotes with
  | plain run value =>
      rw [Numeral.bare, Numeral.dropSign_of_digits run, ← Numeral.toDigits_value run, value]
  | signed run value =>
      rw [Numeral.bare, Numeral.dropSign_signed run, ← Numeral.toDigits_value run, value]

theorem Numeral.Denotes.map_bare (denotes : Numeral.Denotes text number)
    {change : Char → Char}
    (keeps : ∀ {character}, Token.isDigit character → change character = character) :
    (Numeral.bare text).map change = Nat.toDigits 10 number.toNat := by
  rw [denotes.bare_eq]
  calc (Nat.toDigits 10 number.toNat).map change
      = (Nat.toDigits 10 number.toNat).map id :=
        List.map_congr_left fun _ member => keeps (Token.isDigit_of_toDigits member)
    _ = Nat.toDigits 10 number.toNat := List.map_id _

theorem Faces.Denotes.map_toUpper (denotes : Faces.Denotes text faces) :
    (Numeral.bare text).map Char.toUpper = faces.text.toList := by
  cases denotes with
  | numbered numeral =>
      exact (numeral.map_bare Token.toUpper_of_isDigit).trans Nat.toList_repr.symm
  | @fudge letter member =>
      have capital : ∀ letter ∈ ['f', 'F'],
          (Numeral.bare [letter]).map Char.toUpper = ['F'] :=
        forall_mem_cases (by decide) (by decide)
      exact capital letter member

theorem Dice.toList_text_sum (number : UInt64) (faces : Faces) :
    (Dice.sum number faces).text.toList =
      Nat.toDigits 10 number.toNat ++ 'd' :: faces.text.toList := by
  have digits : (toString number.toNat).toList = Nat.toDigits 10 number.toNat :=
    Nat.toList_repr
  rw [Dice.text, String.toList_append, String.toList_append, digits, List.append_assoc]
  rfl

theorem Dice.toList_text_middle (faces : Faces) :
    (Dice.middle faces).text.toList = ['m', 'i'] ++ 'd' :: faces.text.toList := by
  rw [Dice.text, String.toList_append]
  rfl

/-- Reading a text and printing the dice only takes away a plus sign and superfluous zeros
and puts the letters into one case. -/
theorem Dice.Denotes.exists_toList_text (denotes : Dice.Denotes text dice) :
    ∃ count delimiter faces, text = count ++ delimiter :: faces ∧
      delimiter ∈ ['d', 'D'] ∧
      dice.text.toList = (Numeral.bare count).map Char.toLower ++
        'd' :: (Numeral.bare faces).map Char.toUpper := by
  cases denotes with
  | sum numeral delimiterMember facesDenote =>
      refine ⟨_, _, _, rfl, delimiterMember, ?_⟩
      rw [Dice.toList_text_sum, numeral.map_bare Token.toLower_of_isDigit,
        facesDenote.map_toUpper]
  | @middle first second _ _ _ firstMember secondMember delimiterMember facesDenote =>
      have word : ∀ first ∈ ['m', 'M'], ∀ second ∈ ['i', 'I'],
          (Numeral.bare [first, second]).map Char.toLower = ['m', 'i'] :=
        forall_mem_cases (forall_mem_cases (by decide) (by decide))
          (forall_mem_cases (by decide) (by decide))
      refine ⟨_, _, _, rfl, delimiterMember, ?_⟩
      rw [Dice.toList_text_middle, word first firstMember second secondMember,
        facesDenote.map_toUpper]

theorem Numeral.denotes_toDigits (number : UInt64) :
    Numeral.Denotes (Nat.toDigits 10 number.toNat) number :=
  .plain (Token.isDigits_toDigits _) (Numeral.value_toDigits _)

theorem Faces.denotes_text (faces : Faces) : Faces.Denotes faces.text.toList faces := by
  cases faces with
  | fudge => exact .fudge (by decide)
  | numbered sides =>
      have digits : (toString sides.toNat).toList = Nat.toDigits 10 sides.toNat :=
        Nat.toList_repr
      rw [Faces.text, digits]
      exact .numbered (Numeral.denotes_toDigits sides)

/-- The text of dice stands for them. -/
theorem Dice.denotes_text (dice : Dice) : Dice.Denotes dice.text.toList dice := by
  cases dice with
  | sum number faces =>
      rw [Dice.toList_text_sum]
      exact .sum (Numeral.denotes_toDigits number) (by decide) faces.denotes_text
  | middle faces =>
      rw [Dice.toList_text_middle]
      exact .middle (by decide) (by decide) (by decide) faces.denotes_text

theorem Faces.isWritten_text (faces : Faces) : Faces.IsWritten faces.text.toList := by
  cases faces with
  | fudge => exact .inr rfl
  | numbered sides =>
      have digits : (toString sides.toNat).toList = Nat.toDigits 10 sides.toNat :=
        Nat.toList_repr
      rw [Faces.text, digits]
      exact .inl (Token.isDigits_toDigits _)

theorem Dice.isWritten_text (dice : Dice) : Dice.IsWritten dice.text.toList := by
  cases dice with
  | sum number faces =>
      exact ⟨_, 'd', _, Dice.toList_text_sum number faces,
        .inl (Token.isDigits_toDigits _), rfl, faces.isWritten_text⟩
  | middle faces =>
      exact ⟨_, 'd', _, Dice.toList_text_middle faces, .inr rfl, rfl, faces.isWritten_text⟩

/-- A text is a single token of a kind exactly when it is spelled as one. -/
theorem tokenize_eq_single_iff {kind : Token.Kind} {lexeme : String} :
    tokenize lexeme = .ok [⟨kind, lexeme, 0⟩] ↔ kind.Spells lexeme.toList := by
  constructor
  · intro cut
    exact Token.allSpelled_of_tokenize cut _ (List.mem_singleton_self _)
  · intro spells
    obtain ⟨first, tail, split⟩ := spells.exists_cons
    have whole : String.ofList (first :: tail) = lexeme := by
      rw [← split, String.ofList_toList]
    rw [split] at spells
    have scanned :=
      Token.scanFrom_of_longest? (Token.longest?_append spells Token.breaks_nil) 0
    rw [List.append_nil, whole, ← split] at scanned
    rw [tokenize_eq_ok_iff, Token.scan, scanned]
    rfl

theorem Expression.read_text_of_dice (dice : Dice) :
    Expression.read dice.text = .ok (.ofAtom (.ofDice dice)) := by
  have spells : Token.Kind.dice.Spells dice.text.toList := dice.isWritten_text
  have decoded := Dice.read_eq_ok_iff.mpr dice.denotes_text
  exact Expression.read_of_derives (tokenize_eq_single_iff.mpr spells)
    (.term (.atom (.dice decoded))) (Nat.zero_le _)

/-- The text of dice is one token, from which the dice and an expression of them alone
are read again.  Exactly the texts that stand for dice are read, and printing gives them
back up to the case of letters, a plus sign and superfluous zeros. -/
theorem Dice.text_round_trip :
    (∀ dice : Dice, Dice.read dice.text.toList = .ok dice ∧
      tokenize dice.text = .ok [⟨.dice, dice.text, 0⟩] ∧
      Expression.read dice.text = .ok (.ofAtom (.ofDice dice))) ∧
    (∀ text dice, Dice.read text = .ok dice ↔ Dice.Denotes text dice) ∧
    ∀ text dice, Dice.read text = .ok dice →
      ∃ count delimiter faces, text = count ++ delimiter :: faces ∧
        delimiter ∈ ['d', 'D'] ∧
        dice.text.toList = (Numeral.bare count).map Char.toLower ++
          'd' :: (Numeral.bare faces).map Char.toUpper := by
  refine ⟨?_, fun text dice => Dice.read_eq_ok_iff, ?_⟩
  · intro dice
    have spells : Token.Kind.dice.Spells dice.text.toList := dice.isWritten_text
    exact ⟨Dice.read_eq_ok_iff.mpr dice.denotes_text, tokenize_eq_single_iff.mpr spells,
      Expression.read_text_of_dice dice⟩
  · intro text dice success
    exact (Dice.read_eq_ok_iff.mp success).exists_toList_text

/-- A signed and padded count, and a word in mixed case. -/
theorem padded_dice_round_trip :
    Dice.read "+003D06".toList = .ok (.sum 3 (.numbered 6)) ∧
      Dice.Denotes "+003D06".toList (.sum 3 (.numbered 6)) ∧
      (∃ count delimiter faces, "+003D06".toList = count ++ delimiter :: faces ∧
        delimiter ∈ ['d', 'D'] ∧
        "3d6".toList = (Numeral.bare count).map Char.toLower ++
          'd' :: (Numeral.bare faces).map Char.toUpper) ∧
      ∃ count delimiter faces, "mIdf".toList = count ++ delimiter :: faces ∧
        delimiter ∈ ['d', 'D'] ∧
        "midF".toList = (Numeral.bare count).map Char.toLower ++
          'd' :: (Numeral.bare faces).map Char.toUpper := by
  have sumRead : Dice.read "+003D06".toList = .ok (.sum 3 (.numbered 6)) := by
    decide +kernel
  have middleRead : Dice.read "mIdf".toList = .ok (.middle .fudge) := by
    decide +kernel
  obtain ⟨_, reads, prints⟩ := Dice.text_round_trip
  exact ⟨sumRead, (reads _ _).mp sumRead, prints _ _ sumRead, prints _ _ middleRead⟩

end Printing

end DiceOdds
