import DiceOdds.Proofs.ReaderAdequacy
import Mathlib.Data.String.Basic

/-!
# Characters that belong to no token

Cutting a text into tokens stops at its first stray character.  Reading takes the
tokens one at a time, and so it stops at the same character or at a token in front of
it.  The pieces of a text stand one behind the other, which places the fault of such a
token in front of the stray character.
-/

namespace DiceOdds

/-- Offset of the first byte of the piece. -/
def Token.Piece.start : Token.Piece → Nat
  | .token word => word.start
  | .unknown stray => stray.position

/-- Offset of the first byte behind the piece. -/
def Token.Piece.stop : Token.Piece → Nat
  | .token word => word.stop
  | .unknown stray => stray.position + stray.found.utf8Size

/-- No piece starts in front of the characters that are left to scan. -/
theorem Token.le_start_of_mem_scanFrom {skip position : Nat} {text : List Char}
    {piece : Token.Piece} (member : piece ∈ Token.scanFrom skip position text) :
    position + String.utf8Len (text.take skip) ≤ piece.start := by
  induction text generalizing skip position with
  | nil => contradiction
  | cons first rest induction =>
      cases skip with
      | succ skip =>
          have later := induction member
          simp only [List.take_succ_cons, String.utf8Len_cons]
          omega
      | zero =>
          have later : ∀ {length : Nat},
              piece ∈ Token.scanFrom length (position + first.utf8Size) rest →
                position ≤ piece.start := by
            intro length found
            have behind := induction found
            omega
          change position ≤ piece.start
          simp only [Token.scanFrom] at member
          split at member
          · exact later member
          · split at member
            all_goals
              rcases List.mem_cons.mp member with rfl | found
              · exact Nat.le_refl position
              · exact later found

/-- The pieces of a text stand one behind the other. -/
theorem Token.scanFrom_ordered (skip position : Nat) (text : List Char) :
    (Token.scanFrom skip position text).Pairwise fun earlier later =>
      earlier.stop ≤ later.start := by
  induction text generalizing skip position with
  | nil => exact .nil
  | cons first rest induction =>
      cases skip with
      | succ skip => exact induction skip (position + first.utf8Size)
      | zero =>
          simp only [Token.scanFrom]
          split
          · exact induction 0 (position + first.utf8Size)
          · split
            · rename_i kind length _
              refine .cons ?_ (induction length (position + first.utf8Size))
              intro later member
              have behind := Token.le_start_of_mem_scanFrom member
              simp only [Token.Piece.stop, Token.stop, String.utf8ByteSize_ofList,
                String.utf8Len_cons]
              omega
            · refine .cons ?_ (induction 0 (position + first.utf8Size))
              intro later member
              exact Token.le_start_of_mem_scanFrom member

/-- The tokens in front of a stray character end in front of it. -/
theorem Token.stop_le_of_scan {text : String} {before : List Token}
    {stray : Token.Unknown} {later : List Token.Piece}
    (scanned : Token.scan text = before.map .token ++ .unknown stray :: later)
    {token : Token} (member : token ∈ before) : token.stop ≤ stray.position := by
  have ordered := Token.scanFrom_ordered 0 0 text.toList
  rw [← Token.scan, scanned] at ordered
  obtain ⟨_, _, across⟩ := List.pairwise_append.mp ordered
  exact across _ (List.mem_map_of_mem member) _ List.mem_cons_self

theorem Token.Piece.mapM_token?_eq_error_iff {pieces : List Token.Piece}
    {stray : Token.Unknown} :
    pieces.mapM Token.Piece.token? = .error stray ↔
      ∃ (before : List Token) (later : List Token.Piece),
        pieces = before.map .token ++ .unknown stray :: later := by
  induction pieces with
  | nil => simp [pure, Except.pure]
  | cons piece pieces induction =>
      rw [List.mapM_cons]
      cases piece with
      | unknown other =>
          constructor
          · intro failed
            cases failed
            exact ⟨[], pieces, rfl⟩
          · rintro ⟨before, later, split⟩
            cases before with
            | nil =>
                cases split
                rfl
            | cons token before =>
                obtain ⟨absurd, _⟩ := List.cons.inj split
                contradiction
      | token word =>
          rw [Token.Piece.token?, ok_bind]
          constructor
          · intro failed
            rcases error_of_bind_error failed with failed | ⟨_, _, absurd⟩
            · obtain ⟨before, later, rfl⟩ := induction.mp failed
              exact ⟨word :: before, later, rfl⟩
            · contradiction
          · rintro ⟨before, later, split⟩
            cases before with
            | nil =>
                obtain ⟨absurd, _⟩ := List.cons.inj split
                contradiction
            | cons token before =>
                obtain ⟨_, rest⟩ := List.cons.inj split
                have failed := induction.mpr ⟨before, later, rest⟩
                rw [failed]
                rfl

/-- A text is not cut into tokens when a stray character stands behind some of them;
the first such character is reported. -/
theorem tokenize_eq_error_iff {text : String} {stray : Token.Unknown} :
    tokenize text = .error stray ↔
      ∃ (before : List Token) (later : List Token.Piece),
        Token.scan text = before.map .token ++ .unknown stray :: later :=
  Token.Piece.mapM_token?_eq_error_iff

/-- What is refused at a token is a fault of the token. -/
theorem Reading.exists_cause_of_step {reading : Reading} {token : Token}
    {fault : ReadFault} (refused : reading.step (.token token) = .error fault) :
    ∃ cause, fault = token.fault cause := by
  obtain ⟨kind, lexeme, start⟩ := token
  cases reading with
  | beforeOperand groups pending =>
      cases kind with
      | integer | dice | openParen =>
          simp only [Reading.step, Reading.readOperand] at refused
          split at refused
          · contradiction
          · exact ⟨_, (Except.error.inj refused).symm⟩
      | _ => exact ⟨_, (Except.error.inj refused).symm⟩
  | afterOperand groups sum term =>
      cases kind with
      | plus | minus | star | slash => contradiction
      | closeParen =>
          cases groups with
          | nil => exact ⟨_, (Except.error.inj refused).symm⟩
          | cons group outer => contradiction
      | _ => exact ⟨_, (Except.error.inj refused).symm⟩

theorem Reading.exists_cause_of_readAll {reading : Reading} {tokens : List Token}
    {fault : ReadFault} (refused : reading.readAll tokens = .error fault) :
    ∃ token ∈ tokens, ∃ cause, fault = token.fault cause := by
  induction tokens generalizing reading with
  | nil => contradiction
  | cons token tokens induction =>
      rw [Reading.readAll_cons] at refused
      rcases error_of_bind_error refused with refused | ⟨next, _, refused⟩
      · exact ⟨token, List.mem_cons_self, Reading.exists_cause_of_step refused⟩
      · obtain ⟨culprit, member, caused⟩ := induction refused
        exact ⟨culprit, List.mem_cons_of_mem _ member, caused⟩

/-- A text with a stray character is read up to this character, unless a token in front
of it is refused. -/
theorem Expression.read_of_stray {text : String} {before : List Token}
    {stray : Token.Unknown} {later : List Token.Piece}
    (scanned : Token.scan text = before.map .token ++ .unknown stray :: later) :
    Expression.read text = .error (.unrecognized stray) ∨
      ∃ token ∈ before, ∃ cause, Expression.read text = .error (token.fault cause) := by
  rw [Expression.read, scanned, List.foldlM_append, Reading.foldlM_step_tokens]
  cases front : Reading.initial.readAll before with
  | ok reading =>
      left
      cases reading with
      | beforeOperand groups pending => rfl
      | afterOperand groups sum term => rfl
  | error fault =>
      right
      obtain ⟨token, member, cause, rfl⟩ := Reading.exists_cause_of_readAll front
      exact ⟨token, member, cause, rfl⟩

/-- A text of tokens alone is refused for its grammar, if at all. -/
theorem Expression.read_ne_unrecognized {text : String} {tokens : List Token}
    (cut : tokenize text = .ok tokens) (stray : Token.Unknown) :
    Expression.read text ≠ .error (.unrecognized stray) := by
  intro failed
  rw [tokenize_eq_ok_iff] at cut
  rw [Expression.read, cut, Reading.foldlM_step_tokens] at failed
  rcases error_of_bind_error failed with refused | ⟨reading, _, unfinished⟩
  · obtain ⟨_, _, _, absurd⟩ := Reading.exists_cause_of_readAll refused
    contradiction
  · cases reading with
    | beforeOperand groups pending => cases unfinished
    | afterOperand groups sum term =>
        cases groups with
        | nil => cases unfinished
        | cons group outer => cases unfinished

/-- Reading and cutting agree on stray characters.  Reading reports the one at which
cutting stops, or a fault of the grammar that ends in front of it, and it reports no
stray character of a text that is cut into tokens. -/
theorem Expression.read_agrees_with_tokenize (text : String) :
    (∀ stray, Expression.read text = .error (.unrecognized stray) →
      tokenize text = .error stray) ∧
    (∀ stray, tokenize text = .error stray →
      Expression.read text = .error (.unrecognized stray) ∨
        ∃ fault, Expression.read text = .error (.ungrammatical fault) ∧
          fault.stop ≤ stray.position) ∧
    (∀ tokens, tokenize text = .ok tokens →
      ∀ stray, Expression.read text ≠ .error (.unrecognized stray)) := by
  refine ⟨?_, ?_, fun tokens => Expression.read_ne_unrecognized⟩
  · intro stray failed
    cases cut : tokenize text with
    | ok tokens => exact (Expression.read_ne_unrecognized cut stray failed).elim
    | error first =>
        obtain ⟨before, later, scanned⟩ := tokenize_eq_error_iff.mp cut
        rcases Expression.read_of_stray scanned with same | ⟨token, _, cause, other⟩
        · rw [failed] at same
          cases same
          rfl
        · rw [failed] at other
          cases other
  · intro stray stops
    obtain ⟨before, later, scanned⟩ := tokenize_eq_error_iff.mp stops
    rcases Expression.read_of_stray scanned with same | ⟨token, member, cause, refused⟩
    · exact .inl same
    · exact .inr ⟨_, refused, Token.stop_le_of_scan scanned member⟩

/-- Behind an operator the stray character is reported; behind a number that cannot
follow another one it is not. -/
theorem stray_character_behind_numbers :
    Expression.read "1 + $" = .error (.unrecognized ⟨4, '$'⟩) ∧
      tokenize "1 + $" = .error ⟨4, '$'⟩ ∧
      ∃ fault, Expression.read "1 2 $" = .error (.ungrammatical fault) ∧
        fault.stop ≤ 4 := by
  have reported : Expression.read "1 + $" = .error (.unrecognized ⟨4, '$'⟩) := by
    decide +kernel
  have stops : tokenize "1 2 $" = .error ⟨4, '$'⟩ := by
    decide +kernel
  have unreported : Expression.read "1 2 $" ≠ .error (.unrecognized ⟨4, '$'⟩) := by
    decide +kernel
  obtain ⟨same, _, _⟩ := Expression.read_agrees_with_tokenize "1 + $"
  obtain ⟨_, earlier, _⟩ := Expression.read_agrees_with_tokenize "1 2 $"
  exact ⟨reported, same _ reported, (earlier _ stops).resolve_left unreported⟩

end DiceOdds
