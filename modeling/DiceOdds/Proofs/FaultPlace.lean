import DiceOdds.Proofs.FirstImpossible

/-!
# Where faults are reported

Every fault of reading is about the first impossible place of the text.  An unclosed
parenthesis is reported when the text ends behind a complete operand of an open
group, and the fault names the innermost parenthesis that is open.
-/

namespace DiceOdds

/-- Words that are nested within a bound leave room for an expression in them that
stands behind an open parenthesis. -/
theorem Reading.Covers.shallow_inside {outside : Reading} {before inner : List Word}
    {opening : String} {expression : Expression} {bound : Nat}
    (covers : outside.Covers before)
    (nested : Word.NestedWithin bound (before ++ (.openParen, opening) :: inner))
    (derives : Expression.Derives inner expression) :
    outside.groups.length + 1 + expression.depth ≤ bound := by
  obtain ⟨initial, begins, deep⟩ := derives.reaches
  have extended : before ++ (.openParen, opening) :: initial <+:
      before ++ (.openParen, opening) :: inner :=
    (List.prefix_append_right_inj _).mpr ((List.prefix_cons_inj _).mpr begins)
  have within := nested _ extended
  have opened := covers.opened
  simp only [Word.opened_append, Word.closed_append, Word.opened_openParen,
    Word.closed_openParen] at within
  omega

/-- Behind a parenthesis and the words of an expression reading stands behind an
operand, and the innermost open group is that of the parenthesis. -/
theorem Reading.readAll_inside {before inner : List Token} {paren : Token}
    {expression : Expression} {reading : Reading}
    (spelled : Token.AllSpelled (before ++ paren :: inner))
    (opens : paren.kind = .openParen)
    (derives : Expression.Derives (inner.map Token.word) expression)
    (read : Reading.initial.readAll (before ++ paren :: inner) = .ok reading) :
    ∃ outer groups sum term,
      reading = .afterOperand (⟨paren.start, outer⟩ :: groups) sum term := by
  obtain ⟨beforeSpelled, parenSpelled, innerSpelled⟩ := spelled.split
  have reads := Reading.reads_of_readAll spelled read
  rw [Reading.readAll_append] at read
  obtain ⟨outside, beforeRead, rest⟩ := exists_of_bind_ok read
  have outsideReads := Reading.reads_of_readAll beforeSpelled beforeRead
  rw [Reading.readAll_cons] at rest
  obtain ⟨inside, opened, innerRead⟩ := exists_of_bind_ok rest
  obtain ⟨kind, lexeme, start⟩ := paren
  subst opens
  cases outside with
  | afterOperand groups sum term => cases groups <;> contradiction
  | beforeOperand groups pending =>
      simp only [Reading.step, Reading.readOperand] at opened
      split at opened
      · cases opened
        have shallow : (⟨start, pending⟩ :: groups).length + expression.depth ≤
            Expression.maxReadDepth := by
          have nested := reads.nested
          rw [List.map_append, List.map_cons] at nested
          exact outsideReads.covers.shallow_inside nested derives
        obtain ⟨sum, term, innerDone, _⟩ :=
          derives.readAll rfl innerSpelled _ shallow
        rw [innerDone] at innerRead
        cases innerRead
        exact ⟨pending, groups, sum, term, rfl⟩
      · contradiction

/-- Behind an operand in an open group the tokens have an open parenthesis with the
words of an expression behind it. -/
theorem Reading.Covers.exists_inside {groups : List OpenGroup} {group : OpenGroup}
    {sum : Option (Expression × Operator)} {term : Term} {tokens : List Token}
    (covers : (Reading.afterOperand (group :: groups) sum term).Covers
      (tokens.map Token.word)) :
    ∃ before paren inner expression, tokens = before ++ paren :: inner ∧
      paren.kind = .openParen ∧
      Expression.Derives (inner.map Token.word) expression := by
  generalize written : tokens.map Token.word = words at covers
  cases covers with
  | afterOperand outside sumCovers derives =>
      cases outside with
      | @cons _ _ outerWords waitingWords opening outside waiting =>
          simp only [List.append_assoc, List.singleton_append] at written
          rw [← List.append_assoc] at written
          obtain ⟨before, paren, inner, rfl, _, opens, innerWritten⟩ :=
            Token.map_word_eq_join written
          refine ⟨before, paren, inner, .complete sum term, rfl, ?_, ?_⟩
          · exact congrArg Prod.fst opens
          · rw [innerWritten]
            exact sumCovers.complete derives

theorem Expression.exists_inside_of_unclosed {text : String} {opening start stop : Nat}
    {slice : String}
    (failed : Expression.read text =
      .error (.ungrammatical ⟨.unclosedParen opening, start, stop, slice⟩)) :
    ∃ before paren inner expression,
      tokenize text = .ok (before ++ paren :: inner) ∧ paren.kind = .openParen ∧
        paren.start = opening ∧
        Expression.Derives (inner.map Token.word) expression ∧
        Token.Begin (before ++ paren :: inner) := by
  rcases error_of_bind_error failed with refused | ⟨reading, moved, finished⟩
  · -- A token is never refused for a parenthesis that is not closed.
    obtain ⟨before, culprit, later, first⟩ := Expression.firstImpossible_of_step refused
    have pointsAt := first.pointsAt
    cases culprit with
    | unknown stray => contradiction
    | token word =>
        obtain ⟨cause, about, same⟩ := pointsAt
        cases same
        contradiction
  · obtain ⟨tokens, scanned⟩ := Reading.exists_tokens_of_foldlM moved
    have whole : Token.scan text = tokens.map .token ++ [] := by
      rw [scanned, List.append_nil]
    have spelled := Token.allSpelled_of_scan whole
    rw [scanned, Reading.foldlM_step_tokens] at moved
    have reads := Reading.reads_of_readAll spelled moved
    match reading with
    | .beforeOperand _ _ => cases finished
    | .afterOperand [] _ _ => cases finished
    | .afterOperand (_ :: _) _ _ =>
        cases finished
        obtain ⟨before, paren, inner, expression, rfl, opens, derives⟩ :=
          reads.covers.exists_inside
        obtain ⟨outer, others, innerSum, innerTerm, same⟩ :=
          Reading.readAll_inside spelled opens derives moved
        cases same
        exact ⟨before, paren, inner, expression, tokenize_eq_ok_iff.mpr scanned, opens,
          rfl, derives, reads.begin whole⟩

theorem Expression.unclosed_of_inside {text : String} {before inner : List Token}
    {paren : Token} {expression : Expression}
    (cut : tokenize text = .ok (before ++ paren :: inner))
    (opens : paren.kind = .openParen)
    (derives : Expression.Derives (inner.map Token.word) expression)
    (begin : Token.Begin (before ++ paren :: inner)) :
    Expression.read text = .error (.ungrammatical
      ⟨.unclosedParen paren.start, text.utf8ByteSize, text.utf8ByteSize, ""⟩) := by
  obtain ⟨accepted, more, ⟨whole, success⟩, acceptedCut⟩ := begin
  obtain ⟨last, acceptedRead, _⟩ := exists_of_bind_ok success
  rw [tokenize_eq_ok_iff] at acceptedCut
  rw [acceptedCut, Reading.foldlM_step_tokens, Reading.readAll_append] at acceptedRead
  obtain ⟨reading, moved, _⟩ := exists_of_bind_ok acceptedRead
  obtain ⟨outer, groups, sum, term, rfl⟩ :=
    Reading.readAll_inside (Token.allSpelled_of_tokenize cut) opens derives moved
  rw [tokenize_eq_ok_iff] at cut
  rw [Expression.read, cut, Reading.foldlM_step_tokens, moved]
  rfl

/-- Every fault of reading is about the first place that no accepted text has, and
an unclosed parenthesis is reported exactly when a text that could go on ends behind
an expression that stands behind an open parenthesis, which is the one named. -/
theorem Expression.read_faults_at_first_impossible :
    (∀ text fault, Expression.read text = .error fault →
      ∃ before later, fault.FirstImpossible text before later) ∧
    ∀ text opening,
      (∃ start stop slice, Expression.read text =
        .error (.ungrammatical ⟨.unclosedParen opening, start, stop, slice⟩)) ↔
      ∃ before paren inner expression,
        tokenize text = .ok (before ++ paren :: inner) ∧ paren.kind = .openParen ∧
          paren.start = opening ∧
          Expression.Derives (inner.map Token.word) expression ∧
          Token.Begin (before ++ paren :: inner) := by
  refine ⟨?_, ?_⟩
  · intro text fault failed
    rcases error_of_bind_error failed with refused | ⟨reading, moved, finished⟩
    · obtain ⟨before, culprit, later, first⟩ :=
        Expression.firstImpossible_of_step refused
      exact ⟨before, culprit :: later, first⟩
    · obtain ⟨tokens, scanned⟩ := Reading.exists_tokens_of_foldlM moved
      rw [scanned, Reading.foldlM_step_tokens] at moved
      exact ⟨tokens, [], Expression.firstImpossible_of_finish scanned moved finished⟩
  · intro text opening
    constructor
    · rintro ⟨start, stop, slice, failed⟩
      exact Expression.exists_inside_of_unclosed failed
    · rintro ⟨before, paren, inner, expression, cut, opens, rfl, derives, begin⟩
      exact ⟨_, _, _, Expression.unclosed_of_inside cut opens derives begin⟩

/-- A number where an operator or the end of the group is expected, and a group
that is not closed. -/
theorem number_behind_number_located :
    let fault := ReadFault.ungrammatical
      ⟨.unexpectedToken .integer [.closeParen, .plus, .minus, .star, .slash], 3, 4, "2"⟩
    Expression.read "(1 2)" = .error fault ∧
      (∃ before later, fault.FirstImpossible "(1 2)" before later) ∧
      ∃ before paren inner expression,
        tokenize "(1+(2" = .ok (before ++ paren :: inner) ∧ paren.kind = .openParen ∧
          paren.start = 3 ∧ Expression.Derives (inner.map Token.word) expression ∧
          Token.Begin (before ++ paren :: inner) := by
  intro fault
  have failed : Expression.read "(1 2)" = .error fault := by
    decide +kernel
  have unclosed : Expression.read "(1+(2" =
      .error (.ungrammatical ⟨.unclosedParen 3, 5, 5, ""⟩) := by
    decide +kernel
  obtain ⟨located, inside⟩ := Expression.read_faults_at_first_impossible
  exact ⟨failed, located _ _ failed, (inside _ _).mp ⟨_, _, _, unclosed⟩⟩

end DiceOdds
