import DiceOdds.Proofs.PrintRead

/-!
# Going on differently behind a token

A token is found without looking far ahead.  If a text is broken off behind some
of its tokens, a blank keeps these tokens as they were, at the same places,
whatever is written behind the blank.  So the first tokens of a text can be
followed by any words.
-/

namespace DiceOdds

theorem takeWhile_append_of_length_le {front back : List Char} {belongs : Char → Bool}
    (short : ((front ++ back).takeWhile belongs).length ≤ front.length) :
    (front ++ back).takeWhile belongs = front.takeWhile belongs := by
  rw [List.takeWhile_append] at short ⊢
  by_cases all : (front.takeWhile belongs).length = front.length
  · rw [if_pos all, List.length_append] at short
    have nothing : back.takeWhile belongs = [] :=
      List.eq_nil_of_length_eq_zero (by omega)
    rw [if_pos all, nothing, List.append_nil]
    exact ((List.takeWhile_prefix belongs).eq_of_length all).symm
  · rw [if_neg all]

theorem Token.takeWhile_isDigit_blank (front more : List Char) :
    (front ++ ' ' :: more).takeWhile Token.isDigit = front.takeWhile Token.isDigit := by
  apply takeWhile_append_of_length_le
  rw [List.takeWhile_append]
  have stops : (' ' :: more).takeWhile Token.isDigit = [] := rfl
  rw [stops]
  split
  · simp
  · exact (List.takeWhile_prefix _).length_le

theorem Token.facesLength_le (text : List Char) :
    Token.facesLength text ≤ text.length := by
  unfold Token.facesLength
  split
  · rename_i delimiter face rest
    have run := (List.takeWhile_prefix Token.isDigit (l := rest)).length_le
    simp only [List.length_cons]
    split_ifs <;> omega
  · omega

/-- Faces that end inside `front` do not depend on what is behind it. -/
theorem Token.facesLength_blank {front back : List Char}
    (within : Token.facesLength (front ++ back) ≤ front.length) (more : List Char) :
    Token.facesLength (front ++ ' ' :: more) = Token.facesLength (front ++ back) := by
  match front with
  | [] =>
      have nothing : Token.facesLength back = 0 := Nat.le_zero.mp within
      rw [List.nil_append, List.nil_append, nothing]
      cases more <;> rfl
  | [delimiter] =>
      have noFace : Token.facesLength (delimiter :: ' ' :: more) = 0 := by
        simp [Token.facesLength, Faces.isFudgeWord, Token.isDigit, Numeral.digit?]
      have nothing : Token.facesLength (delimiter :: back) = 0 := by
        cases back with
        | nil => rfl
        | cons face rest =>
            simp only [List.cons_append, List.nil_append, List.length_singleton,
              Token.facesLength] at within ⊢
            split_ifs at within ⊢ <;> omega
      exact noFace.trans nothing.symm
  | delimiter :: face :: rest =>
      simp only [List.cons_append, List.length_cons, Token.facesLength] at within ⊢
      split_ifs at within ⊢
      · rfl
      · rfl
      · rw [Token.takeWhile_isDigit_blank, takeWhile_append_of_length_le (by omega)]
      · rfl

theorem Token.length_le_of_longest? {first : Char} {rest : List Char}
    {kind : Token.Kind} {length : Nat}
    (found : Token.longest? first rest = some (kind, length)) :
    length ≤ rest.length := by
  unfold Token.longest? at found
  split_ifs at found with digit middle
  · have digits := (List.takeWhile_prefix Token.isDigit (l := rest)).length_le
    have bound := Token.facesLength_le
      (rest.drop (rest.takeWhile Token.isDigit).length)
    rw [List.length_drop] at bound
    cases faces : Token.facesLength
        (rest.drop (rest.takeWhile Token.isDigit).length) with
    | zero =>
        simp only [faces] at found
        cases found
        exact digits
    | succ facesLength =>
        simp only [faces] at found
        cases found
        omega
  · have bound := Token.facesLength_le (rest.drop 1)
    rw [List.length_drop] at bound
    cases faces : Token.facesLength (rest.drop 1) with
    | zero =>
        simp only [faces] at found
        contradiction
    | succ facesLength =>
        simp only [faces] at found
        cases found
        omega
  · split at found <;> cases found <;> exact Nat.zero_le _

/-- A token that ends inside `front` does not depend on what is behind it. -/
theorem Token.longest?_blank {first : Char} {front back : List Char}
    {kind : Token.Kind} {length : Nat}
    (found : Token.longest? first (front ++ back) = some (kind, length))
    (within : length ≤ front.length) (more : List Char) :
    Token.longest? first (front ++ ' ' :: more) = some (kind, length) := by
  rw [← found]
  unfold Token.longest? at found ⊢
  by_cases digit : Token.isDigit first
  · simp only [digit, if_true] at found ⊢
    have digitsWithin :
        ((front ++ back).takeWhile Token.isDigit).length ≤ front.length := by
      split at found <;> cases found <;> omega
    rw [takeWhile_append_of_length_le digitsWithin] at found ⊢
    have runWithin := (List.takeWhile_prefix Token.isDigit (l := front)).length_le
    rw [List.drop_append_of_le_length runWithin] at found ⊢
    have facesWithin : Token.facesLength
        (front.drop (front.takeWhile Token.isDigit).length ++ back) ≤
          (front.drop (front.takeWhile Token.isDigit).length).length := by
      rw [List.length_drop]
      split at found
      · rename_i noFaces
        omega
      · cases found
        omega
    rw [Token.takeWhile_isDigit_blank, List.drop_append_of_le_length runWithin,
      Token.facesLength_blank facesWithin]
  · simp only [digit, Bool.false_eq_true, if_false] at found ⊢
    cases front with
    | nil =>
        have alone : Dice.isMiddleWord (first :: (' ' :: more).take 1) = false := by
          simp [Dice.isMiddleWord]
        by_cases middle : Dice.isMiddleWord (first :: back.take 1)
        · -- The word for the middle takes two characters, more than there are.
          simp only [List.nil_append, middle, if_true] at found
          split at found
          · contradiction
          · cases found
            rw [List.length_nil] at within
            omega
        · simp only [List.nil_append, alone, middle, Bool.false_eq_true, if_false]
    | cons second front =>
        simp only [List.cons_append, List.take_succ_cons, List.take_zero,
          List.drop_succ_cons, List.drop_zero] at found ⊢
        by_cases middle : Dice.isMiddleWord [first, second]
        · simp only [middle, if_true] at found ⊢
          have facesWithin : Token.facesLength (front ++ back) ≤ front.length := by
            split at found
            · contradiction
            · cases found
              rw [List.length_cons] at within
              omega
          rw [Token.facesLength_blank facesWithin]
        · simp only [middle, Bool.false_eq_true, if_false]

/-- The first tokens of a text stay when a blank is written behind them in place of
what is there. -/
theorem Token.exists_cut {skip position : Nat} {text : List Char} {tokens : List Token}
    {pieces : List Token.Piece}
    (scanned : Token.scanFrom skip position text = tokens.map .token ++ pieces)
    (within : skip ≤ text.length) :
    ∃ front back, text = front ++ back ∧ skip ≤ front.length ∧
      ∀ more, ∃ next, Token.scanFrom skip position (front ++ ' ' :: more) =
        tokens.map .token ++ Token.scanFrom 0 next more := by
  induction text generalizing skip position tokens with
  | nil =>
      obtain rfl : skip = 0 := Nat.le_zero.mp within
      have none : tokens = [] := by
        simpa [Token.scanFrom] using (List.append_eq_nil_iff.mp scanned.symm).1
      subst none
      exact ⟨[], [], rfl, Nat.le_refl 0, fun more => Token.scanFrom_blank more position⟩
  | cons first rest induction =>
      cases skip with
      | succ skip =>
          obtain ⟨front, back, rfl, reaches, goesOn⟩ :=
            induction scanned (Nat.le_of_succ_le_succ within)
          exact ⟨first :: front, back, rfl, Nat.succ_le_succ reaches, goesOn⟩
      | zero =>
          cases tokens with
          | nil =>
              exact ⟨[], first :: rest, rfl, Nat.le_refl 0,
                fun more => Token.scanFrom_blank more position⟩
          | cons token tokens =>
              by_cases blank : Token.isBlank first
              · simp only [Token.scanFrom, blank, if_true] at scanned ⊢
                obtain ⟨front, back, rfl, reaches, goesOn⟩ :=
                  induction scanned (Nat.zero_le _)
                refine ⟨first :: front, back, rfl, Nat.zero_le _, fun more => ?_⟩
                obtain ⟨next, kept⟩ := goesOn more
                refine ⟨next, ?_⟩
                simpa [Token.scanFrom, blank] using kept
              · simp only [Token.scanFrom, blank, Bool.false_eq_true, if_false] at scanned
                cases found : Token.longest? first rest with
                | none =>
                    simp [found] at scanned
                | some longest =>
                    obtain ⟨kind, length⟩ := longest
                    simp only [found, List.map_cons, List.cons_append, List.cons.injEq,
                      Token.Piece.token.injEq] at scanned
                    obtain ⟨same, later⟩ := scanned
                    obtain ⟨front, back, rfl, reaches, goesOn⟩ :=
                      induction later (Token.length_le_of_longest? found)
                    refine ⟨first :: front, back, rfl, Nat.zero_le _, fun more => ?_⟩
                    obtain ⟨next, kept⟩ := goesOn more
                    refine ⟨next, ?_⟩
                    rw [List.take_append_of_le_length reaches] at same
                    simp only [List.cons_append, Token.scanFrom, blank,
                      Bool.false_eq_true, if_false, List.map_cons,
                      Token.longest?_blank found reaches more,
                      List.take_append_of_le_length reaches, same, kept]

/-- Words with a blank behind each. -/
def Word.spread (words : List Word) : List Char :=
  words.flatMap fun word => word.2.toList ++ [' ']

theorem Word.scans_spread {words : List Word} (spelled : Word.AllSpelled words) :
    Token.Scans (Word.spread words) words := by
  induction words with
  | nil =>
      intro rest breaks position
      exact ⟨[], position, rfl, rfl⟩
  | cons word words induction =>
      intro rest breaks position
      have laterSpelled : Word.AllSpelled words := fun word member =>
        spelled word (List.mem_cons_of_mem _ member)
      obtain ⟨tokens, afterWord, written, scanned⟩ :=
        Token.scans_word (spelled word List.mem_cons_self)
          (' ' :: Word.spread words ++ rest) (Token.breaks_blank _) position
      obtain ⟨beforeRest, blank⟩ :=
        Token.scanFrom_blank (Word.spread words ++ rest) afterWord
      obtain ⟨others, next, othersWritten, othersScanned⟩ :=
        induction laterSpelled rest breaks beforeRest
      refine ⟨tokens ++ others, next, ?_, ?_⟩
      · rw [List.map_append, written, othersWritten]
        rfl
      · simp only [Word.spread, List.flatMap_cons, List.append_assoc, List.cons_append,
          List.nil_append, List.map_append] at *
        rw [scanned, blank, othersScanned]

/-- The first tokens of a text can be followed by any words. -/
theorem exists_continued_text {text : String} {tokens : List Token}
    {pieces : List Token.Piece}
    (scanned : Token.scan text = tokens.map .token ++ pieces) {words : List Word}
    (spelled : Word.AllSpelled words) :
    ∃ continued others, tokenize continued = .ok (tokens ++ others) ∧
      others.map Token.word = words := by
  obtain ⟨front, back, whole, reaches, goesOn⟩ :=
    Token.exists_cut scanned (Nat.zero_le _)
  obtain ⟨position, kept⟩ := goesOn (Word.spread words)
  obtain ⟨others, next, written, added⟩ :=
    Word.scans_spread spelled [] Token.breaks_nil position
  refine ⟨String.ofList (front ++ ' ' :: Word.spread words), others, ?_, written⟩
  rw [List.append_nil] at added
  rw [tokenize_eq_ok_iff, Token.scan, String.toList_ofList, kept, added, List.map_append]
  simp [Token.scanFrom]

end DiceOdds
