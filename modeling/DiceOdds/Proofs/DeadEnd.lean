import DiceOdds.Proofs.Continuation
import Mathlib.Data.Sum.Basic

/-!
# Dead ends

Words are a dead end when no accepted text begins with them: behind words that can
go on, a number or dice without a value, a word of a kind that cannot follow, or a
parenthesis that is too deep.  At a dead end, at a character of no token, and at the
end of a text that could go on, no accepted text agrees with the text.
-/

namespace DiceOdds

/-- The text of a number or of dice has a value. -/
def Word.Valued (word : Word) : Prop :=
  (word.1 = .integer → Numeral.value word.2.toList < 2 ^ 63) ∧
    (word.1 = .dice → ∃ dice, Dice.read word.2.toList = .ok dice)

theorem Word.valued_of_kind {word : Word} (noInteger : word.1 ≠ .integer)
    (noDice : word.1 ≠ .dice) : word.Valued :=
  ⟨fun integer => absurd integer noInteger, fun dice => absurd dice noDice⟩

theorem Token.Kind.JoinsTerms.valued {sign : Word} {operator : Operator}
    (joins : sign.1.JoinsTerms operator) : sign.Valued := by
  obtain ⟨kind, lexeme⟩ := sign
  cases joins <;> exact Word.valued_of_kind nofun nofun

theorem Token.Kind.JoinsAtoms.valued {sign : Word} {operator : Operator}
    (joins : sign.1.JoinsAtoms operator) : sign.Valued := by
  obtain ⟨kind, lexeme⟩ := sign
  cases joins <;> exact Word.valued_of_kind nofun nofun

mutual

theorem Expression.Derives.valued {words : List Word} {expression : Expression}
    (derives : Expression.Derives words expression) : ∀ word ∈ words, word.Valued := by
  cases derives with
  | term single => exact single.valued
  | combine left joins right =>
      rw [List.forall_mem_append, List.forall_mem_cons]
      exact ⟨left.valued, joins.valued, right.valued⟩

theorem Term.Derives.valued {words : List Word} {term : Term}
    (derives : Term.Derives words term) : ∀ word ∈ words, word.Valued := by
  cases derives with
  | atom single => exact single.valued
  | combine left joins right =>
      rw [List.forall_mem_append, List.forall_mem_cons]
      exact ⟨left.valued, joins.valued, right.valued⟩

theorem Atom.Derives.valued {words : List Word} {atom : Atom}
    (derives : Atom.Derives words atom) : ∀ word ∈ words, word.Valued := by
  cases derives with
  | constant small =>
      rw [List.forall_mem_singleton]
      exact ⟨fun _ => small, nofun⟩
  | dice decoded =>
      rw [List.forall_mem_singleton]
      exact ⟨nofun, fun _ => ⟨_, decoded⟩⟩
  | group inner =>
      rw [List.cons_append, List.forall_mem_cons, List.forall_mem_append,
        List.forall_mem_singleton]
      exact ⟨Word.valued_of_kind nofun nofun, inner.valued,
        Word.valued_of_kind nofun nofun⟩

end

/-- No accepted text begins with the words. -/
def Word.DeadEnd (words : List Word) : Prop :=
  ∀ more expression, Expression.Derives (words ++ more) expression →
    ¬ Word.NestedWithin Expression.maxReadDepth (words ++ more)

theorem Word.deadEnd_of_not_valued {words : List Word} {word : Word}
    (valueless : ¬ word.Valued) : Word.DeadEnd (words ++ [word]) := by
  intro more expression derives _
  exact valueless (derives.valued word (by simp))

theorem Reading.Covers.deadEnd_of_next {reading : Reading} {words : List Word}
    {word : Word} (covers : reading.Covers words)
    (stuck : reading.place.next word.1 = none) : Word.DeadEnd (words ++ [word]) := by
  intro more expression derives _
  have along := derives.along 0
  rw [List.append_assoc, Place.along_append covers.along, List.singleton_append,
    Place.along_cons, stuck] at along
  contradiction

theorem Reading.Covers.deadEnd_of_full {reading : Reading} {words : List Word}
    {opening : String} (covers : reading.Covers words)
    (full : ¬ reading.groups.length < Expression.maxReadDepth) :
    Word.DeadEnd (words ++ [(.openParen, opening)]) := by
  intro more expression _ nested
  have room := nested.left.room
  have opened := covers.opened
  omega

/-- What is written at a place of a text: a word or a character of no token. -/
def Token.Piece.written : Token.Piece → Word ⊕ Char
  | .token word => .inl word.word
  | .unknown stray => .inr stray.found

/-- No accepted text begins with the tokens and then has the culprit, or ends where
the culprit is the end of the text. -/
def Token.Impossible (tokens : List Token) (culprit : Option Token.Piece) : Prop :=
  ∀ text, Expression.Accepts text →
    match culprit with
    | some piece =>
        ¬ (tokens.map Token.Piece.token ++ [piece]).map Token.Piece.written <+:
          (Token.scan text).map Token.Piece.written
    | none =>
        (Token.scan text).map Token.Piece.written ≠
          (tokens.map Token.Piece.token).map Token.Piece.written

theorem Token.map_written (tokens : List Token) :
    (tokens.map Token.Piece.token).map Token.Piece.written =
      (tokens.map Token.word).map Sum.inl := by
  rw [List.map_map, List.map_map]
  rfl

theorem Expression.Accepts.exists_words {text : String}
    (accepts : Expression.Accepts text) :
    ∃ (tokens : List Token) (expression : Expression),
      Token.scan text = tokens.map .token ∧
      Expression.Derives (tokens.map Token.word) expression ∧
      Word.NestedWithin Expression.maxReadDepth (tokens.map Token.word) := by
  obtain ⟨expression, success⟩ := accepts
  obtain ⟨tokens, cut, derives, nested⟩ := Expression.derives_of_read success
  exact ⟨tokens, expression, tokenize_eq_ok_iff.mp cut, derives, nested⟩

theorem Token.impossible_of_deadEnd {tokens : List Token} {token : Token}
    (deadEnd : Word.DeadEnd (tokens.map Token.word ++ [token.word])) :
    Token.Impossible tokens (some (.token token)) := by
  intro text accepts begins
  obtain ⟨others, expression, scanned, derives, nested⟩ := accepts.exists_words
  have joined : tokens.map Token.Piece.token ++ [.token token] =
      (tokens ++ [token]).map Token.Piece.token := by
    rw [List.map_append, List.map_singleton]
  rw [scanned, joined, Token.map_written, Token.map_written,
    List.prefix_map_iff_of_injective Sum.inl_injective, List.map_append,
    List.map_singleton] at begins
  obtain ⟨more, split⟩ := begins
  rw [← split] at derives nested
  exact deadEnd more expression derives nested

theorem Token.impossible_unknown (tokens : List Token) (stray : Token.Unknown) :
    Token.Impossible tokens (some (.unknown stray)) := by
  intro text accepts begins
  obtain ⟨others, expression, scanned, _⟩ := accepts.exists_words
  rw [scanned, Token.map_written] at begins
  have member : Sum.inr stray.found ∈ (others.map Token.word).map Sum.inl := by
    apply begins.subset
    simp [Token.Piece.written]
  simp at member

/-- A text that ends anywhere but behind an operand outside of all groups is not
accepted. -/
theorem Token.impossible_end {tokens : List Token} {reading : Reading}
    (covers : reading.Covers (tokens.map Token.word))
    (unfinished : reading.place ≠ .behind 0) : Token.Impossible tokens none := by
  intro text accepts same
  obtain ⟨others, expression, scanned, derives, _⟩ := accepts.exists_words
  rw [scanned, Token.map_written, Token.map_written] at same
  have words := List.map_injective_iff.mpr Sum.inl_injective same
  have along := derives.along 0
  rw [words, covers.along] at along
  exact unfinished (Option.some.inj along)

end DiceOdds
