import DiceOdds.Proofs.DeadEnd

/-!
# Faults are about the first impossible place

A fault carries a place of the text.  The tokens in front of it begin an accepted
text, and with what stands there they no longer do; what the fault lists as expected
is what can follow those tokens.  Reading reports such a fault when a token is
refused and when the text ends too early.
-/

namespace DiceOdds

/-- The cause is about the end of a text. -/
def GrammarFault.Cause.AtEnd : GrammarFault.Cause → Prop
  | .unexpectedEnd _ => True
  | .unclosedParen _ => True
  | _ => False

/-- The cause is about a token of this kind. -/
def GrammarFault.Cause.AtToken (kind : Token.Kind) : GrammarFault.Cause → Prop
  | .unexpectedToken found _ => found = kind
  | .unexpectedEnd _ => False
  | .unclosedParen _ => False
  | _ => True

/-- The fault carries the place of the culprit: a character of no token, the bytes
of a token, or the end of a text of this size. -/
def ReadFault.PointsAt (fault : ReadFault) (size : Nat) : Option Token.Piece → Prop
  | some (.unknown stray) => fault = .unrecognized stray
  | some (.token token) => ∃ cause, cause.AtToken token.kind ∧
      fault = .ungrammatical ⟨cause, token.start, token.stop, token.lexeme⟩
  | none => ∃ cause, cause.AtEnd ∧ fault = .ungrammatical ⟨cause, size, size, ""⟩

/-- What the fault lists as expected. -/
def ReadFault.expected? : ReadFault → Option (List Token.Kind)
  | .ungrammatical ⟨.unexpectedToken _ expected, _, _, _⟩ => some expected
  | .ungrammatical ⟨.unexpectedEnd expected, _, _, _⟩ => some expected
  | _ => none

/-- The fault is about the first place of the text that no accepted text has: the
tokens in front of it and what is written there and later, with what the fault lists
as expected there.  Without a bound on nesting the list is exact; with the bound, a
parenthesis that would be too deep is listed as well. -/
structure ReadFault.FirstImpossible (fault : ReadFault) (text : String)
    (before : List Token) (later : List Token.Piece) : Prop where
  scanned : Token.scan text = before.map .token ++ later
  pointsAt : fault.PointsAt text.utf8ByteSize later.head?
  begin : Token.Begin before
  impossible : Token.Impossible before later.head?
  nodup : ∀ expected, fault.expected? = some expected → expected.Nodup
  canFollow : ∀ expected, fault.expected? = some expected → ∀ kind, kind ∈ expected ↔
    ∃ lexeme, Word.Begin Expression.AcceptsDeep
      (before.map Token.word ++ [(kind, lexeme)])
  follows : ∀ expected, fault.expected? = some expected → ∀ kind,
    (kind ∈ expected ∧ (kind = .openParen →
        Word.opened (before.map Token.word) < Word.closed (before.map Token.word) + 64)) ↔
      ∃ lexeme, Word.Begin Expression.Accepts (before.map Token.word ++ [(kind, lexeme)])

theorem Token.pointsAt_fault {token : Token} {cause : GrammarFault.Cause}
    (about : cause.AtToken token.kind) (size : Nat) :
    (token.fault cause).PointsAt size (some (.token token)) :=
  ⟨cause, about, rfl⟩

theorem GrammarFault.Cause.pointsAt_end {cause : GrammarFault.Cause}
    (about : cause.AtEnd) {size : Nat} :
    (ReadFault.ungrammatical ⟨cause, size, size, ""⟩).PointsAt size none :=
  ⟨cause, about, rfl⟩

/-- What a fault says that is reported at a token. -/
structure Token.Refused (reading : Reading) (words : List Word) (token : Token)
    (fault : ReadFault) : Prop where
  pointsAt : ∀ size, fault.PointsAt size (some (.token token))
  deadEnd : Word.DeadEnd (words ++ [token.word])
  expected : ∀ expected, fault.expected? = some expected → expected = reading.expected

theorem Reading.Covers.refused_operand {groups : List OpenGroup} {pending : Pending}
    {words : List Word} {token : Token} {fault : ReadFault}
    (covers : (Reading.beforeOperand groups pending).Covers words)
    (spelled : token.kind.Spells token.lexeme.toList)
    (failed : Reading.readOperand groups pending token = .error fault) :
    Token.Refused (.beforeOperand groups pending) words token fault := by
  obtain ⟨kind, lexeme, start⟩ := token
  cases kind with
  | integer =>
      simp only [Reading.readOperand] at failed
      cases constant : Numeral.readConstant lexeme.toList with
      | ok value =>
          rw [constant] at failed
          contradiction
      | error cause =>
          rw [constant] at failed
          cases failed
          refine ⟨Token.pointsAt_fault trivial, ?_, nofun⟩
          apply Word.deadEnd_of_not_valued
          intro valued
          have read := (Numeral.readConstant_eq_ok_iff spelled).mpr ⟨valued.1 rfl, rfl⟩
          rw [constant] at read
          contradiction
  | dice =>
      simp only [Reading.readOperand] at failed
      cases decoded : Dice.read lexeme.toList with
      | ok dice =>
          rw [decoded] at failed
          contradiction
      | error cause =>
          rw [decoded] at failed
          cases failed
          refine ⟨Token.pointsAt_fault trivial, ?_, nofun⟩
          apply Word.deadEnd_of_not_valued
          intro valued
          obtain ⟨dice, read⟩ := valued.2 rfl
          exact absurd (decoded.symm.trans read) nofun
  | openParen =>
      simp only [Reading.readOperand] at failed
      by_cases room : groups.length < Expression.maxReadDepth
      · rw [if_pos room] at failed
        contradiction
      · rw [if_neg room] at failed
        cases failed
        exact ⟨Token.pointsAt_fault trivial, covers.deadEnd_of_full room, nofun⟩
  | _ =>
      cases failed
      refine ⟨Token.pointsAt_fault rfl, covers.deadEnd_of_next rfl, ?_⟩
      intro expected listed
      exact (Option.some.inj listed).symm

theorem Reading.Covers.refused_operator {groups : List OpenGroup}
    {sum : Option (Expression × Operator)} {term : Term} {words : List Word}
    {token : Token} {fault : ReadFault}
    (covers : (Reading.afterOperand groups sum term).Covers words)
    (failed : Reading.readOperator groups sum term token = .error fault) :
    Token.Refused (.afterOperand groups sum term) words token fault := by
  obtain ⟨kind, lexeme, start⟩ := token
  cases kind with
  | plus | minus | star | slash => contradiction
  | closeParen =>
      cases groups with
      | cons group outer => contradiction
      | nil =>
          cases failed
          exact ⟨Token.pointsAt_fault trivial, covers.deadEnd_of_next rfl, nofun⟩
  | _ =>
      cases failed
      refine ⟨Token.pointsAt_fault rfl, covers.deadEnd_of_next rfl, ?_⟩
      intro expected listed
      exact (Option.some.inj listed).symm

theorem Reading.Covers.refused {reading : Reading} {words : List Word} {token : Token}
    {fault : ReadFault} (covers : reading.Covers words)
    (spelled : token.kind.Spells token.lexeme.toList)
    (failed : reading.step (.token token) = .error fault) :
    Token.Refused reading words token fault := by
  cases reading with
  | beforeOperand groups pending => exact covers.refused_operand spelled failed
  | afterOperand groups sum term => exact covers.refused_operator failed

theorem Reading.exists_refusal {pieces : List Token.Piece} {reading : Reading}
    {fault : ReadFault} (failed : pieces.foldlM Reading.step reading = .error fault) :
    ∃ (tokens : List Token) (piece : Token.Piece) (later : List Token.Piece)
      (stopped : Reading), pieces = tokens.map .token ++ piece :: later ∧
        reading.readAll tokens = .ok stopped ∧ stopped.step piece = .error fault := by
  induction pieces generalizing reading with
  | nil => contradiction
  | cons piece pieces induction =>
      rw [List.foldlM_cons] at failed
      rcases error_of_bind_error failed with first | ⟨middle, moved, rest⟩
      · exact ⟨[], piece, pieces, reading, rfl, rfl, first⟩
      · obtain ⟨tokens, culprit, later, stopped, rfl, read, refused⟩ := induction rest
        cases piece with
        | unknown stray => cases reading <;> contradiction
        | token word =>
            refine ⟨word :: tokens, culprit, later, stopped, rfl, ?_, refused⟩
            rw [Reading.readAll_cons, moved]
            exact read

/-- Reading that stops behind some tokens of a text, at its end or not, reports what
the tokens and the place where it stands say. -/
theorem Reading.Reads.firstImpossible {text : String} {before : List Token}
    {later : List Token.Piece} {reading : Reading} {fault : ReadFault}
    (reads : reading.Reads (before.map Token.word))
    (scanned : Token.scan text = before.map .token ++ later)
    (pointsAt : fault.PointsAt text.utf8ByteSize later.head?)
    (impossible : Token.Impossible before later.head?)
    (listed : ∀ expected, fault.expected? = some expected →
      expected = reading.expected) :
    fault.FirstImpossible text before later := by
  have spelled := (Token.allSpelled_of_scan scanned).words
  refine ⟨scanned, pointsAt, reads.begin scanned, impossible, ?_, ?_, ?_⟩
  · intro expected some
    rw [listed expected some]
    exact reading.nodup_expected
  · intro expected some
    rw [listed expected some]
    exact reads.covers.mem_expected_iff spelled
  · intro expected some
    rw [listed expected some]
    exact reads.mem_expected_iff spelled

theorem Expression.firstImpossible_of_step {text : String} {fault : ReadFault}
    (failed : (Token.scan text).foldlM Reading.step Reading.initial = .error fault) :
    ∃ before culprit later, fault.FirstImpossible text before (culprit :: later) := by
  obtain ⟨before, culprit, later, stopped, scanned, read, refused⟩ :=
    Reading.exists_refusal failed
  have reads := Reading.reads_of_readAll (Token.allSpelled_of_scan scanned) read
  refine ⟨before, culprit, later, ?_⟩
  cases culprit with
  | unknown stray =>
      have same : fault = .unrecognized stray := by
        cases stopped <;> cases refused <;> rfl
      subst same
      exact reads.firstImpossible scanned rfl (Token.impossible_unknown before stray) nofun
  | token word =>
      have member : Token.Piece.token word ∈ Token.scan text := by
        simp [scanned]
      have spelled := Token.spells_of_mem_scanFrom member
      have refusal := reads.covers.refused spelled refused
      exact reads.firstImpossible scanned (refusal.pointsAt _)
        (Token.impossible_of_deadEnd refusal.deadEnd) refusal.expected

theorem Expression.firstImpossible_of_finish {text : String} {before : List Token}
    {reading : Reading} {fault : ReadFault}
    (scanned : Token.scan text = before.map .token)
    (read : Reading.initial.readAll before = .ok reading)
    (failed : reading.finish text.utf8ByteSize = .error fault) :
    fault.FirstImpossible text before [] := by
  have whole : Token.scan text = before.map .token ++ [] := by
    rw [scanned, List.append_nil]
  have reads := Reading.reads_of_readAll (Token.allSpelled_of_scan whole) read
  match reading with
  | .beforeOperand _ _ =>
      cases failed
      have pointsAt := @GrammarFault.Cause.pointsAt_end
        (.unexpectedEnd Token.Kind.operandStarts) trivial text.utf8ByteSize
      refine reads.firstImpossible whole pointsAt
        (Token.impossible_end reads.covers nofun) ?_
      intro expected listed
      exact (Option.some.inj listed).symm
  | .afterOperand (group :: _) _ _ =>
      cases failed
      have pointsAt := @GrammarFault.Cause.pointsAt_end
        (.unclosedParen group.opening) trivial text.utf8ByteSize
      exact reads.firstImpossible whole pointsAt
        (Token.impossible_end reads.covers nofun) nofun
  | .afterOperand [] _ _ => contradiction

end DiceOdds
