import DiceOdds.Proofs.FirstImpossible
import DiceOdds.Proofs.LimitRefusal
import DiceOdds.Proofs.PrintRead
import DiceOdds.Proofs.StrayCharacters
import Mathlib.Order.Bounds.Basic

/-!
# How deep an expression nests

Reading keeps one open group for each parenthesis that is open at the place where it
stands.  A tree is as deep as the greatest number of parentheses open at once in the
words that derive it, since a group takes one more than what is inside and a chain the
most that one of its parts takes.  So the bound that reading puts on its open groups is
the one that limits put on trees.
-/

namespace DiceOdds

theorem Word.nestedWithin_nil (bound : Nat) : Word.NestedWithin bound [] := by
  intro initial begins
  rw [List.prefix_nil.mp begins, Word.opened_nil]
  exact Nat.zero_le _

theorem Word.NestedWithin.mono {bound wider : Nat} {words : List Word}
    (nested : Word.NestedWithin bound words) (below : bound ≤ wider) :
    Word.NestedWithin wider words := by
  intro initial begins
  have within := nested initial begins
  omega

/-- Behind words that close what they open the count of open parentheses starts again. -/
theorem Word.NestedWithin.append {bound : Nat} {left right : List Word}
    (leftNested : Word.NestedWithin bound left) (balanced : Word.Balanced left)
    (rightNested : Word.NestedWithin bound right) :
    Word.NestedWithin bound (left ++ right) := by
  apply leftNested.extend
  intro added begins
  have within := rightNested added begins
  unfold Word.Balanced at balanced
  rw [Word.opened_append, Word.closed_append]
  omega

theorem Word.NestedWithin.join {leftDepth rightDepth : Nat} {left right : List Word}
    {sign : Word} (leftNested : Word.NestedWithin leftDepth left)
    (balanced : Word.Balanced left)
    (noParen : sign.1 ≠ .openParen ∧ sign.1 ≠ .closeParen)
    (rightNested : Word.NestedWithin rightDepth right) :
    Word.NestedWithin (max leftDepth rightDepth) (left ++ sign :: right) := by
  have signNested : Word.NestedWithin (max leftDepth rightDepth) [sign] :=
    (Word.nestedWithin_nil _).append_word fun opens => (noParen.1 opens).elim
  have behind := signNested.append (Word.balanced_sign noParen)
    (rightNested.mono (Nat.le_max_right leftDepth rightDepth))
  exact (leftNested.mono (Nat.le_max_left _ _)).append balanced behind

/-- A group opens one parenthesis more than what is inside. -/
theorem Word.NestedWithin.enclose {bound : Nat} {words : List Word}
    {opening closing : String} (nested : Word.NestedWithin bound words) :
    Word.NestedWithin (bound + 1)
      ((.openParen, opening) :: words ++ [(.closeParen, closing)]) := by
  apply Word.NestedWithin.append_unopened _ rfl
  intro initial begins
  rcases List.prefix_cons_iff.mp begins with rfl | ⟨inside, rfl, insideBegins⟩
  · exact Nat.zero_le _
  · have within := nested inside insideBegins
    rw [Word.opened_openParen, Word.closed_openParen]
    omega

mutual

/-- A derivation opens no more parentheses at once than its tree is deep. -/
theorem Expression.Derives.nestedWithin {words : List Word} {expression : Expression}
    (derives : Expression.Derives words expression) :
    Word.NestedWithin expression.depth words := by
  cases derives with
  | term single => exact single.nestedWithin
  | combine left joins right =>
      exact left.nestedWithin.join left.balanced joins.noParen right.nestedWithin

theorem Term.Derives.nestedWithin {words : List Word} {term : Term}
    (derives : Term.Derives words term) : Word.NestedWithin term.depth words := by
  cases derives with
  | atom single => exact single.nestedWithin
  | combine left joins right =>
      exact left.nestedWithin.join left.balanced joins.noParen right.nestedWithin

theorem Atom.Derives.nestedWithin {words : List Word} {atom : Atom}
    (derives : Atom.Derives words atom) : Word.NestedWithin atom.depth words := by
  cases derives with
  | constant _ => exact (Word.nestedWithin_nil 0).append_unopened rfl
  | dice _ => exact (Word.nestedWithin_nil 0).append_unopened rfl
  | group inner => exact inner.nestedWithin.enclose

end

/-- A tree is as deep as the greatest number of parentheses that are open at once in
the words that derive it. -/
theorem Expression.Derives.isGreatest_depth {words : List Word} {expression : Expression}
    (derives : Expression.Derives words expression) :
    IsGreatest {depth | Word.Reaches depth words} expression.depth := by
  refine ⟨derives.reaches, ?_⟩
  rintro depth ⟨initial, begins, opened⟩
  have within := derives.nestedWithin initial begins
  omega

/-- Reading the text stands so behind these tokens and in front of the rest. -/
def Reading.Stands (reading : Reading) (text : String) (before : List Token)
    (rest : List Token.Piece) : Prop :=
  Token.scan text = before.map .token ++ rest ∧
    Reading.initial.readAll before = .ok reading

theorem Token.start_lt_stop {token : Token}
    (spells : token.kind.Spells token.lexeme.toList) : token.start < token.stop := by
  obtain ⟨first, tail, split⟩ := spells.exists_cons
  have lexeme : token.lexeme = String.ofList (first :: tail) := by
    rw [← split, String.ofList_toList]
  have positive := first.utf8Size_pos
  rw [Token.stop, lexeme, String.utf8ByteSize_ofList, String.utf8Len_cons]
  omega

theorem Reading.finish_ne_tooDeep {reading : Reading} {size limit : Nat}
    {fault : GrammarFault} (unfinished : reading.finish size = .error (.ungrammatical fault)) :
    fault.cause ≠ .tooDeep limit := by
  rintro deep
  cases reading with
  | beforeOperand groups pending =>
      cases unfinished
      contradiction
  | afterOperand groups sum term =>
      cases groups with
      | nil => contradiction
      | cons group outer =>
          cases unfinished
          contradiction

/-- A step refuses the nesting of nothing but a parenthesis in front of an operand. -/
theorem Reading.eq_of_step_tooDeep {reading : Reading} {piece : Token.Piece}
    {fault : GrammarFault} {limit : Nat}
    (refused : reading.step piece = .error (.ungrammatical fault))
    (deep : fault.cause = .tooDeep limit) :
    ∃ groups pending opening, reading = .beforeOperand groups pending ∧
      piece = .token opening ∧ opening.kind = .openParen ∧
      ReadFault.ungrammatical fault = opening.fault (.tooDeep Expression.maxReadDepth) := by
  cases piece with
  | unknown stray => cases reading <;> cases refused
  | token word =>
      obtain ⟨kind, lexeme, start⟩ := word
      cases reading with
      | beforeOperand groups pending =>
          cases kind with
          | openParen =>
              refine ⟨groups, pending, _, rfl, rfl, rfl, ?_⟩
              simp only [Reading.step, Reading.readOperand] at refused
              split at refused
              · contradiction
              · exact (Except.error.inj refused).symm
          | integer | dice =>
              simp only [Reading.step, Reading.readOperand] at refused
              split at refused
              · contradiction
              · cases refused
                contradiction
          | _ =>
              cases refused
              contradiction
      | afterOperand groups sum term =>
          cases kind with
          | plus | minus | star | slash => contradiction
          | closeParen =>
              cases groups with
              | nil =>
                  cases refused
                  contradiction
              | cons group outer => contradiction
          | _ =>
              cases refused
              contradiction

section Places

variable {text : String} {reading : Reading} {before : List Token}
  {opening : Token} {rest : List Token.Piece}

theorem Reading.Stands.reads (stands : reading.Stands text before rest) :
    reading.Reads (before.map Token.word) :=
  Reading.reads_of_readAll (Token.allSpelled_of_scan stands.1) stands.2

/-- From where reading stands, the rest of the text decides. -/
theorem Reading.Stands.read_eq (stands : reading.Stands text before rest) :
    Expression.read text =
      rest.foldlM Reading.step reading >>= Reading.finish text.utf8ByteSize := by
  rw [Expression.read, stands.1, List.foldlM_append, Reading.foldlM_step_tokens,
    stands.2, ok_bind]

/-- The pieces behind a token begin behind its last byte. -/
theorem Reading.Stands.stop_le_start (stands : reading.Stands text before (.token opening :: rest))
    {piece : Token.Piece} (member : piece ∈ rest) : opening.stop ≤ piece.start := by
  have ordered := Token.scanFrom_ordered 0 0 text.toList
  rw [← Token.scan, stands.1] at ordered
  obtain ⟨_, behind, _⟩ := List.pairwise_append.mp ordered
  exact (List.pairwise_cons.mp behind).1 piece member

/-- A token that is passed is not refused for its nesting. -/
theorem Reading.Stands.read_ne_tooDeep {next : Reading} {limit : Nat}
    (stands : reading.Stands text before (.token opening :: rest))
    (moved : reading.step (.token opening) = .ok next) :
    Expression.read text ≠ .error (opening.fault (.tooDeep limit)) := by
  have spells : opening.kind.Spells opening.lexeme.toList := by
    have member : Token.Piece.token opening ∈ Token.scan text := by
      simp [stands.1]
    exact Token.spells_of_mem_scanFrom member
  intro failed
  rw [stands.read_eq, List.foldlM_cons, moved, ok_bind] at failed
  rcases error_of_bind_error failed with refused | ⟨last, _, unfinished⟩
  · obtain ⟨tokens, piece, later, stopped, rfl, _, culprit⟩ := Reading.exists_refusal refused
    cases piece with
    | unknown stray => cases stopped <;> cases culprit
    | token word =>
        -- A token behind this one begins elsewhere, so its faults are others.
        have member : Token.Piece.token word ∈ tokens.map .token ++ .token word :: later := by
          simp
        have behind : opening.stop ≤ word.start := stands.stop_le_start member
        obtain ⟨cause, same⟩ := Reading.exists_cause_of_step culprit
        simp only [Token.fault, ReadFault.ungrammatical.injEq, GrammarFault.mk.injEq] at same
        obtain ⟨_, sameStart, _⟩ := same
        have advances := Token.start_lt_stop spells
        omega
  · exact Reading.finish_ne_tooDeep unfinished rfl

/-- A parenthesis in front of an operand is refused exactly when the bound on open
parentheses is reached. -/
theorem Reading.Stands.read_eq_tooDeep_iff {groups : List OpenGroup} {pending : Pending}
    (stands : (Reading.beforeOperand groups pending).Stands text before
      (.token opening :: rest))
    (opens : opening.kind = .openParen) :
    Expression.read text = .error (opening.fault (.tooDeep Expression.maxReadDepth)) ↔
      groups.length = Expression.maxReadDepth := by
  have step : (Reading.beforeOperand groups pending).step (.token opening) =
      if groups.length < Expression.maxReadDepth then
        .ok (.beforeOperand (⟨opening.start, pending⟩ :: groups) .start)
      else
        .error (opening.fault (.tooDeep Expression.maxReadDepth)) := by
    simp only [Reading.step, Reading.readOperand, opens]
  have shallow := stands.reads.shallow
  by_cases room : groups.length < Expression.maxReadDepth
  · rw [if_pos room] at step
    exact iff_of_false (stands.read_ne_tooDeep step) (Nat.ne_of_lt room)
  · rw [if_neg room] at step
    have full : groups.length = Expression.maxReadDepth :=
      Nat.le_antisymm shallow (Nat.le_of_not_lt room)
    rw [stands.read_eq, List.foldlM_cons, step]
    exact iff_of_true rfl full

end Places

/-- Reading refuses the nesting of nothing but a parenthesis in front of an operand. -/
theorem Expression.exists_place_of_tooDeep {text : String} {fault : GrammarFault}
    {limit : Nat} (failed : Expression.read text = .error (.ungrammatical fault))
    (deep : fault.cause = .tooDeep limit) :
    ∃ before opening rest groups pending,
      (Reading.beforeOperand groups pending).Stands text before (.token opening :: rest) ∧
        opening.kind = .openParen ∧
        ReadFault.ungrammatical fault = opening.fault (.tooDeep Expression.maxReadDepth) := by
  rcases error_of_bind_error failed with refused | ⟨last, _, unfinished⟩
  · obtain ⟨before, piece, rest, stopped, scanned, moved, culprit⟩ :=
      Reading.exists_refusal refused
    obtain ⟨groups, pending, opening, rfl, rfl, opens, same⟩ :=
      Reading.eq_of_step_tooDeep culprit deep
    exact ⟨before, opening, rest, groups, pending, ⟨scanned, moved⟩, opens, same⟩
  · exact (Reading.finish_ne_tooDeep unfinished deep).elim

/-- Nesting is measured alike by reading and by trees.  Wherever reading stands, the open
groups are the parentheses still open there, at most 64; the tree that is read is as deep
as the most that are open at once.  A parenthesis in front of an operand is refused for
its nesting exactly when 64 are open in front of it, and nothing else is, so that the
standard limits never refuse the nesting of what has been read. -/
theorem Expression.nesting_measured_alike :
    (∀ text before rest reading, Reading.Stands reading text before rest →
      reading.groups.length ≤ 64 ∧
        Word.opened (before.map Token.word) =
          Word.closed (before.map Token.word) + reading.groups.length) ∧
    (∀ text expression, Expression.read text = .ok expression →
      ∃ tokens, tokenize text = .ok tokens ∧
        IsGreatest {depth | Word.Reaches depth (tokens.map Token.word)}
          expression.depth) ∧
    (∀ text before opening rest groups pending,
      (Reading.beforeOperand groups pending).Stands text before (.token opening :: rest) →
      opening.kind = .openParen →
        (Expression.read text = .error (opening.fault (.tooDeep 64)) ↔
          Word.opened (before.map Token.word) =
            Word.closed (before.map Token.word) + 64)) ∧
    (∀ text fault limit, Expression.read text = .error (.ungrammatical fault) →
      fault.cause = .tooDeep limit →
        ∃ before opening rest groups pending,
          (Reading.beforeOperand groups pending).Stands text before
            (.token opening :: rest) ∧
          opening.kind = .openParen ∧
          ReadFault.ungrammatical fault = opening.fault (.tooDeep 64)) ∧
    ∀ text expression, Expression.read text = .ok expression → ∀ depth limit,
      expression.distribution .standard ≠ .error (.tooDeep depth limit) := by
  refine ⟨?_, ?_, ?_, fun text fault limit => Expression.exists_place_of_tooDeep, ?_⟩
  · intro text before rest reading stands
    exact ⟨stands.reads.shallow, stands.reads.covers.opened⟩
  · intro text expression success
    obtain ⟨tokens, cut, derives, _⟩ := Expression.derives_of_read success
    exact ⟨tokens, cut, derives.isGreatest_depth⟩
  · intro text before opening rest groups pending stands opens
    have opened := stands.reads.covers.opened
    rw [opened, Nat.add_left_cancel_iff]
    exact stands.read_eq_tooDeep_iff opens
  · intro text expression success depth limit failed
    obtain ⟨tokens, _, derives, nested⟩ := Expression.derives_of_read success
    obtain ⟨_, bounded, deep⟩ := Expression.distribution_eq_tooDeep_iff.mp failed
    have shallow := derives.depth_le nested
    cases bounded
    exact Nat.not_le_of_lt deep shallow

/-- Behind a group that is closed 64 parentheses may be opened and not one more, and two
are open at once at most in the other text. -/
theorem parenthesis_refused_behind_sixty_four :
    let deep := "(1)*" ++ String.ofList (List.replicate 65 '(')
    let flat := Expression.term (.combine
      (.atom (.group (.combine
        (.term (.atom (.group (.ofAtom (.constant 1))))) .add (.atom (.constant 2))))) .mul
      (.group (.ofAtom (.constant 3))))
    (∃ before opening rest groups pending,
      (Reading.beforeOperand groups pending).Stands deep before (.token opening :: rest) ∧
        groups.length ≤ 64 ∧
        Word.opened (before.map Token.word) = Word.closed (before.map Token.word) + 64) ∧
    (∃ tokens, tokenize "((1)+2)*(3)" = .ok tokens ∧
      IsGreatest {depth | Word.Reaches depth (tokens.map Token.word)} 2) ∧
    ∀ depth limit, flat.distribution .standard ≠ .error (.tooDeep depth limit) := by
  intro deep flat
  have failed : Expression.read deep =
      .error (.ungrammatical ⟨.tooDeep 64, 68, 69, "("⟩) := by
    decide +kernel
  have success : Expression.read "((1)+2)*(3)" = .ok flat := by
    decide +kernel
  obtain ⟨bounded, greatest, refused, refusedOnly, unrefused⟩ :=
    Expression.nesting_measured_alike
  obtain ⟨before, opening, rest, groups, pending, stands, opens, same⟩ :=
    refusedOnly deep _ 64 failed rfl
  rw [same] at failed
  exact ⟨⟨before, opening, rest, groups, pending, stands, (bounded _ _ _ _ stands).1,
      (refused _ _ _ _ _ _ stands opens).mp failed⟩,
    greatest _ _ success, unrefused _ _ success⟩

end DiceOdds
