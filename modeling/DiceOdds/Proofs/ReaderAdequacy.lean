import DiceOdds.Proofs.Attempts
import DiceOdds.Proofs.Grammar

/-!
# Reading is deriving

What the reader keeps covers the words it has read: what waits to the left of an
operand is derived by the words before it, and every open group stands for one
parenthesis.  Each token keeps this, so what is read to the end is derived.
Conversely the reader follows every derivation whose parentheses it can keep
open, whatever waits outside.  So an expression is read from a text exactly when
the words of the text derive it, and then they derive nothing else.
-/

namespace DiceOdds

/-- Reads some tokens. -/
def Reading.readAll (reading : Reading) (tokens : List Token) :
    Except ReadFault Reading :=
  tokens.foldlM (fun reading token => reading.step (.token token)) reading

/-- Every token spells a word of its kind. -/
def Token.AllSpelled (tokens : List Token) : Prop :=
  ∀ token ∈ tokens, token.kind.Spells token.lexeme.toList

theorem Reading.readAll_cons (reading : Reading) (token : Token) (tokens : List Token) :
    reading.readAll (token :: tokens) =
      reading.step (.token token) >>= fun next => next.readAll tokens :=
  List.foldlM_cons

theorem Reading.readAll_append (reading : Reading) (first second : List Token) :
    reading.readAll (first ++ second) =
      reading.readAll first >>= fun next => next.readAll second :=
  List.foldlM_append

theorem Reading.readOperator_joinsTerms {groups : List OpenGroup} {token : Token}
    {operator : Operator} (joins : token.kind.JoinsTerms operator)
    (sum : Option (Expression × Operator)) (term : Term) :
    Reading.readOperator groups sum term token =
      .ok (.beforeOperand groups ⟨some (.complete sum term, operator), none⟩) := by
  unfold Reading.readOperator
  generalize token.kind = kind at joins
  cases joins <;> rfl

theorem Reading.readOperator_joinsAtoms {groups : List OpenGroup} {token : Token}
    {operator : Operator} (joins : token.kind.JoinsAtoms operator)
    (sum : Option (Expression × Operator)) (term : Term) :
    Reading.readOperator groups sum term token =
      .ok (.beforeOperand groups ⟨sum, some (term, operator)⟩) := by
  unfold Reading.readOperator
  generalize token.kind = kind at joins
  cases joins <;> rfl

theorem Token.map_word_eq_join {tokens : List Token} {left right : List Word}
    {sign : Word} (written : tokens.map Token.word = left ++ sign :: right) :
    ∃ before token after, tokens = before ++ token :: after ∧
      before.map Token.word = left ∧ token.word = sign ∧
      after.map Token.word = right := by
  obtain ⟨before, rest, rfl, leftWritten, joined⟩ := List.map_eq_append_iff.mp written
  obtain ⟨token, after, rfl, signWritten, rightWritten⟩ := List.map_eq_cons_iff.mp joined
  exact ⟨before, token, after, rfl, leftWritten, signWritten, rightWritten⟩

theorem Token.AllSpelled.split {before after : List Token} {token : Token}
    (spelled : Token.AllSpelled (before ++ token :: after)) :
    Token.AllSpelled before ∧ token.kind.Spells token.lexeme.toList ∧
      Token.AllSpelled after := by
  refine ⟨?_, ?_, ?_⟩
  · exact fun word member => spelled word (List.mem_append_left _ member)
  · exact spelled token (by simp)
  · exact fun word member => spelled word (by simp [member])

mutual

/-- The reader follows a derivation inside the groups that are open. -/
theorem Expression.Derives.readAll {words : List Word} {expression : Expression}
    (derives : Expression.Derives words expression) {tokens : List Token}
    (written : tokens.map Token.word = words) (spelled : Token.AllSpelled tokens)
    (groups : List OpenGroup)
    (shallow : groups.length + expression.depth ≤ Expression.maxReadDepth) :
    ∃ sum term, (Reading.beforeOperand groups .start).readAll tokens =
        .ok (.afterOperand groups sum term) ∧
      Expression.complete sum term = expression := by
  cases derives with
  | term single =>
      exact ⟨none, _, single.readAll written spelled groups shallow none, rfl⟩
  | @combine leftWords rightWords sign lhs operator rhs left joins right =>
      obtain ⟨before, token, after, rfl, leftWritten, rfl, rightWritten⟩ :=
        Token.map_word_eq_join written
      obtain ⟨leftSpelled, _, rightSpelled⟩ := spelled.split
      simp only [Expression.depth] at shallow
      obtain ⟨sum, term, leftRead, rfl⟩ :=
        left.readAll leftWritten leftSpelled groups (by omega)
      have rightRead := right.readAll rightWritten rightSpelled groups (by omega)
        (some (.complete sum term, operator))
      refine ⟨some (.complete sum term, operator), rhs, ?_, rfl⟩
      rw [Reading.readAll_append, leftRead, ok_bind, Reading.readAll_cons,
        Reading.step, Reading.readOperator_joinsTerms joins, ok_bind]
      exact rightRead

theorem Term.Derives.readAll {words : List Word} {term : Term}
    (derives : Term.Derives words term) {tokens : List Token}
    (written : tokens.map Token.word = words) (spelled : Token.AllSpelled tokens)
    (groups : List OpenGroup)
    (shallow : groups.length + term.depth ≤ Expression.maxReadDepth)
    (sum : Option (Expression × Operator)) :
    (Reading.beforeOperand groups ⟨sum, none⟩).readAll tokens =
      .ok (.afterOperand groups sum term) := by
  cases derives with
  | atom single => exact single.readAll written spelled groups shallow ⟨sum, none⟩
  | @combine leftWords rightWords sign lhs operator rhs left joins right =>
      obtain ⟨before, token, after, rfl, leftWritten, rfl, rightWritten⟩ :=
        Token.map_word_eq_join written
      obtain ⟨leftSpelled, _, rightSpelled⟩ := spelled.split
      simp only [Term.depth] at shallow
      have leftRead := left.readAll leftWritten leftSpelled groups (by omega) sum
      have rightRead := right.readAll rightWritten rightSpelled groups (by omega)
        ⟨sum, some (lhs, operator)⟩
      rw [Reading.readAll_append, leftRead, ok_bind, Reading.readAll_cons,
        Reading.step, Reading.readOperator_joinsAtoms joins, ok_bind]
      exact rightRead

theorem Atom.Derives.readAll {words : List Word} {atom : Atom}
    (derives : Atom.Derives words atom) {tokens : List Token}
    (written : tokens.map Token.word = words) (spelled : Token.AllSpelled tokens)
    (groups : List OpenGroup)
    (shallow : groups.length + atom.depth ≤ Expression.maxReadDepth)
    (pending : Pending) :
    (Reading.beforeOperand groups pending).readAll tokens =
      .ok (.supply groups pending atom) := by
  cases derives with
  | constant small =>
      obtain ⟨⟨kind, lexeme, start⟩, rfl, single⟩ := List.map_eq_singleton_iff.mp written
      cases single
      have digits : Token.IsDigits lexeme.toList := spelled _ List.mem_cons_self
      have constant := (Numeral.readConstant_eq_ok_iff digits).mpr ⟨small, rfl⟩
      simp only [Reading.readAll_cons, Reading.step, Reading.readOperand, constant]
      rfl
  | dice decoded =>
      obtain ⟨⟨kind, lexeme, start⟩, rfl, single⟩ := List.map_eq_singleton_iff.mp written
      cases single
      simp only [Reading.readAll_cons, Reading.step, Reading.readOperand, decoded]
      rfl
  | @group words opening closing inner derives =>
      obtain ⟨before, last, rfl, opened, closed⟩ := List.map_eq_append_iff.mp written
      obtain ⟨⟨openKind, openLexeme, start⟩, middle, rfl, openWord, innerWritten⟩ :=
        List.map_eq_cons_iff.mp opened
      cases openWord
      obtain ⟨⟨closeKind, closeLexeme, stop⟩, rfl, closeWord⟩ :=
        List.map_eq_singleton_iff.mp closed
      cases closeWord
      have innerSpelled : Token.AllSpelled middle := fun token member =>
        spelled token (by simp [member])
      simp only [Atom.depth] at shallow
      have room : groups.length < Expression.maxReadDepth := by omega
      obtain ⟨sum, term, innerRead, rfl⟩ :=
        derives.readAll innerWritten innerSpelled (⟨start, pending⟩ :: groups)
          (by rw [List.length_cons]; omega)
      rw [List.cons_append, Reading.readAll_cons, Reading.step, Reading.readOperand]
      simp only [if_pos room, ok_bind]
      rw [Reading.readAll_append, innerRead, ok_bind, Reading.readAll_cons]
      rfl

end

/-- What waits for a term is derived by some words. -/
inductive Pending.SumCovers : Option (Expression × Operator) → List Word → Prop where
  | none : SumCovers none []
  | some {words : List Word} {sign : Word} {lhs : Expression} {operator : Operator} :
      Expression.Derives words lhs → sign.1.JoinsTerms operator →
      SumCovers (some (lhs, operator)) (words ++ [sign])

/-- What waits for an atom is derived by some words. -/
inductive Pending.ProductCovers : Option (Term × Operator) → List Word → Prop where
  | none : ProductCovers none []
  | some {words : List Word} {sign : Word} {lhs : Term} {operator : Operator} :
      Term.Derives words lhs → sign.1.JoinsAtoms operator →
      ProductCovers (some (lhs, operator)) (words ++ [sign])

/-- What waits for an operand is derived by some words. -/
inductive Pending.Covers : Pending → List Word → Prop where
  | intro {pending : Pending} {sumWords productWords : List Word} :
      SumCovers pending.sum sumWords → ProductCovers pending.product productWords →
      Covers pending (sumWords ++ productWords)

/-- The open groups stand for what waits outside of each and its parenthesis. -/
inductive OpenGroup.AllCover : List OpenGroup → List Word → Prop where
  | nil : AllCover [] []
  | cons {group : OpenGroup} {outer : List OpenGroup} {outerWords words : List Word}
      {opening : String} :
      AllCover outer outerWords → group.outer.Covers words →
      AllCover (group :: outer) (outerWords ++ words ++ [(.openParen, opening)])

/-- What the reader keeps stands for the words it has read. -/
inductive Reading.Covers : Reading → List Word → Prop where
  | beforeOperand {groups : List OpenGroup} {pending : Pending}
      {groupWords pendingWords : List Word} :
      OpenGroup.AllCover groups groupWords → pending.Covers pendingWords →
      Covers (.beforeOperand groups pending) (groupWords ++ pendingWords)
  | afterOperand {groups : List OpenGroup} {sum : Option (Expression × Operator)}
      {term : Term} {groupWords sumWords termWords : List Word} :
      OpenGroup.AllCover groups groupWords → Pending.SumCovers sum sumWords →
      Term.Derives termWords term →
      Covers (.afterOperand groups sum term) (groupWords ++ sumWords ++ termWords)

theorem Pending.start_covers : Pending.start.Covers [] :=
  @Pending.Covers.intro .start [] [] .none .none

theorem Pending.ProductCovers.complete {pending : Pending} {words operandWords : List Word}
    {operand : Atom} (covers : Pending.ProductCovers pending.product words)
    (derives : Atom.Derives operandWords operand) :
    Term.Derives (words ++ operandWords) (pending.complete operand) := by
  obtain ⟨sum, product⟩ := pending
  cases covers with
  | none => exact .atom derives
  | some left joins =>
      rw [List.append_assoc]
      exact .combine left joins derives

theorem Pending.SumCovers.complete {sum : Option (Expression × Operator)}
    {words termWords : List Word} {term : Term} (covers : Pending.SumCovers sum words)
    (derives : Term.Derives termWords term) :
    Expression.Derives (words ++ termWords) (.complete sum term) := by
  cases covers with
  | none => exact .term derives
  | some left joins =>
      rw [List.append_assoc]
      exact .combine left joins derives

/-- An operand goes on with what waits for it. -/
theorem Reading.supply_covers {groups : List OpenGroup} {pending : Pending}
    {groupWords pendingWords operandWords : List Word} {operand : Atom}
    (outside : OpenGroup.AllCover groups groupWords)
    (waiting : pending.Covers pendingWords)
    (derives : Atom.Derives operandWords operand) :
    (Reading.supply groups pending operand).Covers
      (groupWords ++ pendingWords ++ operandWords) := by
  cases waiting with
  | intro sumCovers productCovers =>
      rw [← List.append_assoc, List.append_assoc _ _ operandWords]
      exact .afterOperand outside sumCovers (productCovers.complete derives)

theorem Reading.Covers.readOperand {groups : List OpenGroup} {pending : Pending}
    {words : List Word} {token : Token} {next : Reading}
    (covers : (Reading.beforeOperand groups pending).Covers words)
    (spelled : token.kind.Spells token.lexeme.toList)
    (moved : Reading.readOperand groups pending token = .ok next) :
    next.Covers (words ++ [token.word]) := by
  obtain ⟨kind, lexeme, start⟩ := token
  cases covers with
  | beforeOperand outside waiting =>
      cases kind with
      | integer =>
          simp only [Reading.readOperand] at moved
          cases constant : Numeral.readConstant lexeme.toList with
          | error fault =>
              rw [constant] at moved
              contradiction
          | ok value =>
              rw [constant] at moved
              cases moved
              obtain ⟨small, rfl⟩ := (Numeral.readConstant_eq_ok_iff spelled).mp constant
              exact Reading.supply_covers outside waiting (.constant small)
      | dice =>
          simp only [Reading.readOperand] at moved
          cases decoded : Dice.read lexeme.toList with
          | error fault =>
              rw [decoded] at moved
              contradiction
          | ok dice =>
              rw [decoded] at moved
              cases moved
              exact Reading.supply_covers outside waiting (.dice decoded)
      | openParen =>
          simp only [Reading.readOperand] at moved
          by_cases room : groups.length < Expression.maxReadDepth
          · rw [if_pos room] at moved
            cases moved
            rw [← List.append_nil (_ ++ [_])]
            exact .beforeOperand (.cons outside waiting) Pending.start_covers
          · rw [if_neg room] at moved
            contradiction
      | _ => contradiction

section Behind

variable {groups : List OpenGroup} {sum : Option (Expression × Operator)} {term : Term}
  {groupWords sumWords termWords : List Word} {sign : Word} {operator : Operator}

theorem Reading.joinTerms_covers (outside : OpenGroup.AllCover groups groupWords)
    (sumCovers : Pending.SumCovers sum sumWords)
    (derives : Term.Derives termWords term) (joins : sign.1.JoinsTerms operator) :
    (Reading.beforeOperand groups ⟨some (.complete sum term, operator), none⟩).Covers
      (groupWords ++ sumWords ++ termWords ++ [sign]) := by
  have waiting : Pending.Covers ⟨some (.complete sum term, operator), none⟩
      (sumWords ++ termWords ++ [sign] ++ []) :=
    .intro (.some (sumCovers.complete derives) joins) .none
  simpa only [List.append_assoc, List.append_nil] using
    Reading.Covers.beforeOperand outside waiting

theorem Reading.joinAtoms_covers (outside : OpenGroup.AllCover groups groupWords)
    (sumCovers : Pending.SumCovers sum sumWords)
    (derives : Term.Derives termWords term) (joins : sign.1.JoinsAtoms operator) :
    (Reading.beforeOperand groups ⟨sum, some (term, operator)⟩).Covers
      (groupWords ++ sumWords ++ termWords ++ [sign]) := by
  have waiting : Pending.Covers ⟨sum, some (term, operator)⟩
      (sumWords ++ (termWords ++ [sign])) :=
    .intro sumCovers (.some derives joins)
  simpa only [List.append_assoc] using Reading.Covers.beforeOperand outside waiting

theorem Reading.closeGroup_covers {group : OpenGroup} {outer : List OpenGroup}
    {outerWords waitingWords : List Word} {opening closing : String}
    (outside : OpenGroup.AllCover outer outerWords)
    (waiting : group.outer.Covers waitingWords)
    (sumCovers : Pending.SumCovers sum sumWords)
    (derives : Term.Derives termWords term) :
    (Reading.supply outer group.outer (.group (.complete sum term))).Covers
      (outerWords ++ waitingWords ++ [(.openParen, opening)] ++ sumWords ++
        termWords ++ [(.closeParen, closing)]) := by
  have inner : Atom.Derives
      ((.openParen, opening) :: (sumWords ++ termWords) ++ [(.closeParen, closing)])
      (.group (.complete sum term)) :=
    .group (sumCovers.complete derives)
  simpa only [List.append_assoc, List.cons_append, List.nil_append] using
    Reading.supply_covers outside waiting inner

theorem Reading.Covers.readOperator {words : List Word} {token : Token} {next : Reading}
    (covers : (Reading.afterOperand groups sum term).Covers words)
    (moved : Reading.readOperator groups sum term token = .ok next) :
    next.Covers (words ++ [token.word]) := by
  obtain ⟨kind, lexeme, start⟩ := token
  cases covers with
  | afterOperand outside sumCovers derives =>
      cases kind with
      | plus =>
          cases moved
          exact Reading.joinTerms_covers outside sumCovers derives .plus
      | minus =>
          cases moved
          exact Reading.joinTerms_covers outside sumCovers derives .minus
      | star =>
          cases moved
          exact Reading.joinAtoms_covers outside sumCovers derives .star
      | slash =>
          cases moved
          exact Reading.joinAtoms_covers outside sumCovers derives .slash
      | closeParen =>
          cases outside with
          | nil => contradiction
          | cons outside waiting =>
              cases moved
              exact Reading.closeGroup_covers outside waiting sumCovers derives
      | _ => contradiction

end Behind

theorem Reading.Covers.step {reading next : Reading} {words : List Word} {token : Token}
    (covers : reading.Covers words) (spelled : token.kind.Spells token.lexeme.toList)
    (moved : reading.step (.token token) = .ok next) :
    next.Covers (words ++ [token.word]) := by
  cases reading with
  | beforeOperand groups pending => exact covers.readOperand spelled moved
  | afterOperand groups sum term => exact covers.readOperator moved

/-- The groups that are open. -/
def Reading.groups : Reading → List OpenGroup
  | .beforeOperand groups _ => groups
  | .afterOperand groups _ _ => groups

theorem Word.Balanced.append {left right : List Word} (leftBalanced : Word.Balanced left)
    (rightBalanced : Word.Balanced right) : Word.Balanced (left ++ right) := by
  unfold Word.Balanced at *
  rw [Word.opened_append, Word.closed_append, leftBalanced, rightBalanced]

theorem Word.balanced_sign {sign : Word}
    (noParen : sign.1 ≠ .openParen ∧ sign.1 ≠ .closeParen) :
    Word.Balanced [sign] := by
  simp [Word.Balanced, Word.opened_cons, Word.closed_cons, noParen]

theorem Pending.SumCovers.balanced {sum : Option (Expression × Operator)}
    {words : List Word} (covers : Pending.SumCovers sum words) : Word.Balanced words := by
  cases covers with
  | none => rfl
  | some left joins => exact left.balanced.append (Word.balanced_sign joins.noParen)

theorem Pending.ProductCovers.balanced {product : Option (Term × Operator)}
    {words : List Word} (covers : Pending.ProductCovers product words) :
    Word.Balanced words := by
  cases covers with
  | none => rfl
  | some left joins => exact left.balanced.append (Word.balanced_sign joins.noParen)

theorem Pending.Covers.balanced {pending : Pending} {words : List Word}
    (covers : pending.Covers words) : Word.Balanced words := by
  cases covers with
  | intro sum product => exact sum.balanced.append product.balanced

theorem OpenGroup.AllCover.opened {groups : List OpenGroup} {words : List Word}
    (covers : OpenGroup.AllCover groups words) :
    Word.opened words = Word.closed words + groups.length := by
  induction covers with
  | nil => rfl
  | cons outside waiting induction =>
      have balanced := waiting.balanced
      unfold Word.Balanced at balanced
      simp only [Word.opened_append, Word.closed_append, Word.opened_openParen,
        Word.closed_openParen, Word.opened_nil, Word.closed_nil, List.length_cons,
        induction, balanced]
      omega

/-- One parenthesis is open for each open group. -/
theorem Reading.Covers.opened {reading : Reading} {words : List Word}
    (covers : reading.Covers words) :
    Word.opened words = Word.closed words + reading.groups.length := by
  cases covers with
  | beforeOperand outside waiting =>
      have balanced := waiting.balanced
      unfold Word.Balanced at balanced
      simp only [Word.opened_append, Word.closed_append, outside.opened, balanced,
        Reading.groups]
      omega
  | afterOperand outside sum derives =>
      have balanced := sum.balanced.append derives.balanced
      unfold Word.Balanced at balanced
      rw [List.append_assoc, Word.opened_append, Word.closed_append, outside.opened,
        balanced, Reading.groups]
      omega

theorem Reading.groups_step {reading next : Reading} {piece : Token.Piece}
    (moved : reading.step piece = .ok next)
    (shallow : reading.groups.length ≤ Expression.maxReadDepth) :
    next.groups.length ≤ Expression.maxReadDepth := by
  cases piece with
  | unknown stray => cases reading <;> contradiction
  | token word =>
      obtain ⟨kind, lexeme, start⟩ := word
      cases reading with
      | beforeOperand groups pending =>
          cases kind with
          | openParen =>
              simp only [Reading.step, Reading.readOperand] at moved
              split at moved
              · rename_i room
                cases moved
                exact room
              · contradiction
          | integer | dice =>
              simp only [Reading.step, Reading.readOperand] at moved
              split at moved
              · cases moved
                exact shallow
              · contradiction
          | _ => contradiction
      | afterOperand groups sum term =>
          cases kind with
          | closeParen =>
              cases groups with
              | nil => contradiction
              | cons group outer =>
                  cases moved
                  exact Nat.le_of_succ_le shallow
          | plus | minus | star | slash =>
              cases moved
              exact shallow
          | _ => contradiction

/-- What reading some words in order keeps true. -/
structure Reading.Reads (reading : Reading) (words : List Word) : Prop where
  covers : reading.Covers words
  shallow : reading.groups.length ≤ Expression.maxReadDepth
  nested : Word.NestedWithin Expression.maxReadDepth words

theorem Reading.initial_reads : Reading.initial.Reads [] := by
  constructor
  · exact @Reading.Covers.beforeOperand [] .start [] [] .nil Pending.start_covers
  · decide
  · intro initial begins
    rw [List.prefix_nil.mp begins]
    decide

theorem Reading.Reads.step {reading next : Reading} {words : List Word} {token : Token}
    (reads : reading.Reads words) (spelled : token.kind.Spells token.lexeme.toList)
    (moved : reading.step (.token token) = .ok next) :
    next.Reads (words ++ [token.word]) := by
  have covers := reads.covers.step spelled moved
  have shallow := Reading.groups_step moved reads.shallow
  refine ⟨covers, shallow, ?_⟩
  intro initial begins
  rcases List.prefix_concat_iff.mp begins with rfl | earlier
  · rw [covers.opened]
    omega
  · exact reads.nested initial earlier

theorem Reading.Reads.readAll {reading next : Reading} {words : List Word}
    {tokens : List Token} (reads : reading.Reads words)
    (spelled : Token.AllSpelled tokens) (moved : reading.readAll tokens = .ok next) :
    next.Reads (words ++ tokens.map Token.word) := by
  induction tokens generalizing reading words with
  | nil =>
      cases moved
      simpa using reads
  | cons token tokens induction =>
      rw [Reading.readAll_cons] at moved
      obtain ⟨middle, first, rest⟩ := exists_of_bind_ok moved
      have later : Token.AllSpelled tokens := fun word member =>
        spelled word (List.mem_cons_of_mem _ member)
      have stepped := reads.step (spelled token List.mem_cons_self) first
      rw [List.map_cons, List.append_cons]
      exact induction stepped later rest

theorem Reading.reads_of_readAll {reading : Reading} {tokens : List Token}
    (spelled : Token.AllSpelled tokens)
    (moved : Reading.initial.readAll tokens = .ok reading) :
    reading.Reads (tokens.map Token.word) := by
  have reads := Reading.initial_reads.readAll spelled moved
  rwa [List.nil_append] at reads

theorem Token.Piece.mapM_token?_eq_ok_iff {pieces : List Token.Piece}
    {tokens : List Token} :
    pieces.mapM Token.Piece.token? = .ok tokens ↔ pieces = tokens.map .token := by
  induction pieces generalizing tokens with
  | nil => cases tokens <;> simp [pure, Except.pure]
  | cons piece pieces induction =>
      rw [List.mapM_cons]
      cases piece with
      | unknown stray =>
          cases tokens <;> simp [Token.Piece.token?, bind, Except.bind]
      | token word =>
          rw [Token.Piece.token?, ok_bind]
          constructor
          · intro success
            obtain ⟨rest, cut, whole⟩ := exists_of_bind_ok success
            cases whole
            rw [induction.mp cut, List.map_cons]
          · intro scanned
            cases tokens with
            | nil => contradiction
            | cons first rest =>
                obtain ⟨same, later⟩ := List.cons.inj scanned
                cases same
                rw [induction.mpr later]
                rfl

/-- A text is cut into tokens when it holds nothing else. -/
theorem tokenize_eq_ok_iff {text : String} {tokens : List Token} :
    tokenize text = .ok tokens ↔ Token.scan text = tokens.map .token :=
  Token.Piece.mapM_token?_eq_ok_iff

theorem Reading.foldlM_step_tokens (reading : Reading) (tokens : List Token) :
    (tokens.map Token.Piece.token).foldlM Reading.step reading =
      reading.readAll tokens := by
  rw [List.foldlM_map, Reading.readAll]

theorem Reading.exists_tokens_of_foldlM {reading next : Reading}
    {pieces : List Token.Piece} (moved : pieces.foldlM Reading.step reading = .ok next) :
    ∃ tokens : List Token, pieces = tokens.map .token := by
  induction pieces generalizing reading with
  | nil => exact ⟨[], rfl⟩
  | cons piece pieces induction =>
      rw [List.foldlM_cons] at moved
      obtain ⟨middle, first, rest⟩ := exists_of_bind_ok moved
      obtain ⟨tokens, rfl⟩ := induction rest
      cases piece with
      | unknown stray => cases reading <;> contradiction
      | token word => exact ⟨word :: tokens, rfl⟩

theorem Token.allSpelled_of_scan {text : String} {tokens : List Token}
    {pieces : List Token.Piece}
    (scanned : Token.scan text = tokens.map .token ++ pieces) :
    Token.AllSpelled tokens := by
  intro token member
  have found : Token.Piece.token token ∈ Token.scan text := by
    rw [scanned]
    exact List.mem_append_left _ (List.mem_map_of_mem member)
  exact Token.spells_of_mem_scanFrom found

theorem Token.allSpelled_of_tokenize {text : String} {tokens : List Token}
    (cut : tokenize text = .ok tokens) : Token.AllSpelled tokens := by
  have scanned := tokenize_eq_ok_iff.mp cut
  rw [← List.append_nil (tokens.map _)] at scanned
  exact Token.allSpelled_of_scan scanned

theorem Expression.derives_of_read {text : String} {expression : Expression}
    (success : Expression.read text = .ok expression) :
    ∃ tokens, tokenize text = .ok tokens ∧
      Expression.Derives (tokens.map Token.word) expression ∧
      Word.NestedWithin Expression.maxReadDepth (tokens.map Token.word) := by
  obtain ⟨reading, moved, finished⟩ := exists_of_bind_ok success
  obtain ⟨tokens, scanned⟩ := Reading.exists_tokens_of_foldlM moved
  have cut := tokenize_eq_ok_iff.mpr scanned
  rw [scanned, Reading.foldlM_step_tokens] at moved
  have reads := Reading.reads_of_readAll (Token.allSpelled_of_tokenize cut) moved
  refine ⟨tokens, cut, ?_, reads.nested⟩
  cases reading with
  | beforeOperand groups pending => contradiction
  | afterOperand groups sum term =>
      cases groups with
      | cons group outer => contradiction
      | nil =>
          cases finished
          generalize tokens.map Token.word = words at reads
          cases reads.covers with
          | afterOperand outside sumCovers derives =>
              cases outside
              exact sumCovers.complete derives

theorem Expression.read_of_derives {text : String} {tokens : List Token}
    {expression : Expression} (cut : tokenize text = .ok tokens)
    (derives : Expression.Derives (tokens.map Token.word) expression)
    (shallow : expression.depth ≤ Expression.maxReadDepth) :
    Expression.read text = .ok expression := by
  obtain ⟨sum, term, moved, rfl⟩ := derives.readAll rfl
    (Token.allSpelled_of_tokenize cut) [] (by simpa using shallow)
  rw [tokenize_eq_ok_iff] at cut
  rw [Expression.read, cut, Reading.foldlM_step_tokens, Reading.initial, moved]
  rfl

theorem Expression.read_eq_ok_iff_derives {text : String} {expression : Expression} :
    Expression.read text = .ok expression ↔
      ∃ tokens, tokenize text = .ok tokens ∧
        Expression.Derives (tokens.map Token.word) expression ∧
        Word.NestedWithin Expression.maxReadDepth (tokens.map Token.word) := by
  constructor
  · exact Expression.derives_of_read
  · intro ⟨tokens, cut, derives, nested⟩
    exact Expression.read_of_derives cut derives (derives.depth_le nested)

/-- The reader accepts the grammar up to 64 open parentheses, and nothing else.
What it reads from a text is the only tree that the words of the text derive, and
another text with the same words is read in the same way. -/
theorem Expression.read_accepts_grammar (text : String) (expression : Expression) :
    (Expression.read text = .ok expression ↔
      ∃ tokens, tokenize text = .ok tokens ∧
        Expression.Derives (tokens.map Token.word) expression ∧
        Word.NestedWithin 64 (tokens.map Token.word)) ∧
    (∀ tokens other, Expression.read text = .ok expression →
      tokenize text = .ok tokens →
      Expression.Derives (tokens.map Token.word) other → other = expression) ∧
    (∀ tokens alike others, tokenize text = .ok tokens →
      tokenize alike = .ok others →
      others.map Token.word = tokens.map Token.word →
      (Expression.read alike = .ok expression ↔
        Expression.read text = .ok expression)) := by
  refine ⟨Expression.read_eq_ok_iff_derives, ?_, ?_⟩
  · intro tokens other success cut derives
    obtain ⟨sameTokens, sameCut, _, nested⟩ := Expression.derives_of_read success
    rw [cut] at sameCut
    cases sameCut
    have otherSuccess := Expression.read_of_derives cut derives (derives.depth_le nested)
    rw [success] at otherSuccess
    exact (Except.ok.inj otherSuccess).symm
  · intro tokens alike others cut alikeCut sameWords
    simp only [Expression.read_eq_ok_iff_derives, cut, alikeCut, Except.ok.injEq,
      exists_eq_left', sameWords]

/-- A sum in parentheses, with and without blanks. -/
theorem grouped_sum_read_without_blanks :
    let sum := Expression.ofAtom
      (.group (.combine (.term (.atom (.constant 1))) .add (.atom (.constant 2))))
    Expression.read "(1+2)" = .ok sum ∧
      (∀ other, Expression.Derives
        [(.openParen, "("), (.integer, "1"), (.plus, "+"), (.integer, "2"),
          (.closeParen, ")")] other → other = sum) ∧
      (Expression.read " ( 1 + 2 )" = .ok sum ↔ Expression.read "(1+2)" = .ok sum) := by
  intro sum
  have cut : tokenize "(1+2)" =
      .ok [⟨.openParen, "(", 0⟩, ⟨.integer, "1", 1⟩, ⟨.plus, "+", 2⟩,
        ⟨.integer, "2", 3⟩, ⟨.closeParen, ")", 4⟩] := by
    decide +kernel
  have spacedCut : tokenize " ( 1 + 2 )" =
      .ok [⟨.openParen, "(", 1⟩, ⟨.integer, "1", 3⟩, ⟨.plus, "+", 5⟩,
        ⟨.integer, "2", 7⟩, ⟨.closeParen, ")", 9⟩] := by
    decide +kernel
  have success : Expression.read "(1+2)" = .ok sum := by
    decide +kernel
  obtain ⟨_, unique, alike⟩ := Expression.read_accepts_grammar "(1+2)" sum
  exact ⟨success, fun other derives => unique _ other success cut derives,
    alike _ _ _ cut spacedCut rfl⟩

end DiceOdds
