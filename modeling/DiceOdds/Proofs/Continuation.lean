import DiceOdds.Proofs.ViablePrefix

/-!
# What can follow

The tokens that have been read begin an accepted text.  The kinds expected next are
those of which a word can follow in such a text.  With the bound on nesting this
fails for one kind alone: a parenthesis that would be too deep.
-/

namespace DiceOdds

/-- Some expression is read from the text. -/
def Expression.Accepts (text : String) : Prop :=
  ∃ expression, Expression.read text = .ok expression

/-- Some expression is derived by the words of the text, however deep it nests. -/
def Expression.AcceptsDeep (text : String) : Prop :=
  ∃ tokens expression, tokenize text = .ok tokens ∧
    Expression.Derives (tokens.map Token.word) expression

/-- The words are the first words of some accepted text. -/
def Word.Begin (accepts : String → Prop) (words : List Word) : Prop :=
  ∃ text tokens, accepts text ∧ tokenize text = .ok tokens ∧
    words <+: tokens.map Token.word

/-- The tokens are, at the same places, the first tokens of some accepted text. -/
def Token.Begin (tokens : List Token) : Prop :=
  ∃ text more, Expression.Accepts text ∧ tokenize text = .ok (tokens ++ more)

/-- Behind words that are nested within a bound only the words that are added count. -/
theorem Word.NestedWithin.extend {bound : Nat} {words more : List Word}
    (nested : Word.NestedWithin bound words)
    (behind : ∀ added, added <+: more →
      Word.opened (words ++ added) ≤ Word.closed (words ++ added) + bound) :
    Word.NestedWithin bound (words ++ more) := by
  intro initial begins
  rcases List.prefix_or_prefix_of_prefix begins (List.prefix_append words more) with
    inside | ⟨added, rfl⟩
  · exact nested initial inside
  · exact behind added ((List.prefix_append_right_inj words).mp begins)

theorem Word.NestedWithin.append_unopened {bound : Nat} {words more : List Word}
    (nested : Word.NestedWithin bound words) (unopened : Word.opened more = 0) :
    Word.NestedWithin bound (words ++ more) := by
  apply nested.extend
  intro added begins
  have fewer : Word.opened added ≤ Word.opened more := begins.sublist.countP_le
  have within := nested words (List.prefix_refl words)
  rw [Word.opened_append, Word.closed_append]
  omega

theorem Word.AllSpelled.append {left right : List Word}
    (leftSpelled : Word.AllSpelled left) (rightSpelled : Word.AllSpelled right) :
    Word.AllSpelled (left ++ right) :=
  List.forall_mem_append.mpr ⟨leftSpelled, rightSpelled⟩

theorem Expression.read_of_nested {text : String} {tokens : List Token}
    {expression : Expression} (cut : tokenize text = .ok tokens)
    (derives : Expression.Derives (tokens.map Token.word) expression)
    (nested : Word.NestedWithin Expression.maxReadDepth (tokens.map Token.word)) :
    Expression.read text = .ok expression :=
  Expression.read_of_derives cut derives (derives.depth_le nested)

/-- The tokens that have been read begin an accepted text. -/
theorem Reading.Reads.begin {text : String} {tokens : List Token}
    {pieces : List Token.Piece} {reading : Reading}
    (scanned : Token.scan text = tokens.map .token ++ pieces)
    (reads : reading.Reads (tokens.map Token.word)) : Token.Begin tokens := by
  obtain ⟨more, expression, spelled, unopened, derives⟩ := reads.covers.completable
  obtain ⟨continued, others, cut, written⟩ := exists_continued_text scanned spelled
  have nested := reads.nested.append_unopened unopened
  rw [← written, ← List.map_append] at derives nested
  exact ⟨continued, others, ⟨expression, Expression.read_of_nested cut derives nested⟩,
    cut⟩

theorem exists_text_of_spelled {words : List Word} (spelled : Word.AllSpelled words) :
    ∃ text tokens, tokenize text = .ok tokens ∧ tokens.map Token.word = words := by
  have empty : Token.scan "" = ([] : List Token).map .token ++ [] := rfl
  obtain ⟨text, tokens, cut, written⟩ := exists_continued_text empty spelled
  exact ⟨text, tokens, cut, written⟩

/-- One more word keeps the nesting within the bound, unless it opens a parenthesis
where no more may be opened. -/
theorem Word.NestedWithin.append_word {bound : Nat} {words : List Word} {word : Word}
    (nested : Word.NestedWithin bound words)
    (room : word.1 = .openParen → Word.opened words < Word.closed words + bound) :
    Word.NestedWithin bound (words ++ [word]) := by
  intro initial begins
  rcases List.prefix_concat_iff.mp begins with rfl | earlier
  · have within := nested words (List.prefix_refl words)
    simp only [Word.opened_append, Word.closed_append, Word.opened_cons,
      Word.closed_cons, Word.opened_nil, Word.closed_nil]
    by_cases opens : word.1 = .openParen
    · have closes : word.1 ≠ .closeParen := by
        rw [opens]
        exact nofun
      have less := room opens
      rw [if_pos opens, if_neg closes]
      omega
    · rw [if_neg opens]
      omega
  · exact nested initial earlier

theorem Word.NestedWithin.room {bound : Nat} {words : List Word} {opening : String}
    (nested : Word.NestedWithin bound (words ++ [(.openParen, opening)])) :
    Word.opened words < Word.closed words + bound := by
  have within := nested _ (List.prefix_refl _)
  simp only [Word.opened_append, Word.closed_append, Word.opened_openParen,
    Word.closed_openParen, Word.opened_nil, Word.closed_nil] at within
  omega

theorem Word.NestedWithin.left {bound : Nat} {words more : List Word}
    (nested : Word.NestedWithin bound (words ++ more)) :
    Word.NestedWithin bound words :=
  fun _ begins => nested _ (begins.trans (List.prefix_append _ _))

/-- A word of an expected kind can be put behind the words, and then the rest of an
expression that opens no more parentheses. -/
theorem Reading.Covers.exists_text_extending {reading : Reading} {words : List Word}
    {kind : Token.Kind} (covers : reading.Covers words)
    (spelled : Word.AllSpelled words) (expected : kind ∈ reading.expected) :
    ∃ lexeme more text tokens expression, tokenize text = .ok tokens ∧
      tokens.map Token.word = words ++ [(kind, lexeme)] ++ more ∧
      Word.opened more = 0 ∧ Expression.Derives (tokens.map Token.word) expression := by
  obtain ⟨lexeme, next, spells, nextCovers⟩ := covers.exists_extension expected
  obtain ⟨more, expression, moreSpelled, unopened, derives⟩ := nextCovers.completable
  have oneSpelled : Word.AllSpelled [(kind, lexeme)] :=
    List.forall_mem_singleton.mpr spells
  obtain ⟨text, tokens, cut, written⟩ :=
    exists_text_of_spelled ((spelled.append oneSpelled).append moreSpelled)
  rw [← written] at derives
  exact ⟨lexeme, more, text, tokens, expression, cut, written, unopened, derives⟩

/-- The expected kinds are those of which a word can follow, nesting apart. -/
theorem Reading.Covers.mem_expected_iff {reading : Reading} {words : List Word}
    (covers : reading.Covers words) (spelled : Word.AllSpelled words)
    (kind : Token.Kind) :
    kind ∈ reading.expected ↔
      ∃ lexeme, Word.Begin Expression.AcceptsDeep (words ++ [(kind, lexeme)]) := by
  constructor
  · intro expected
    obtain ⟨lexeme, more, text, tokens, expression, cut, written, _, derives⟩ :=
      covers.exists_text_extending spelled expected
    exact ⟨lexeme, text, tokens, ⟨tokens, expression, cut, derives⟩, cut,
      written ▸ List.prefix_append _ _⟩
  · rintro ⟨lexeme, text, tokens, ⟨same, expression, sameCut, derives⟩, cut, begins⟩
    rw [cut] at sameCut
    cases sameCut
    obtain ⟨more, split⟩ := begins
    have along := derives.along 0
    rw [← split, List.append_assoc, Place.along_append covers.along,
      List.singleton_append, Place.along_cons] at along
    rw [Reading.mem_expected_iff, Option.isSome_iff_exists]
    obtain ⟨next, leads, _⟩ := Option.bind_eq_some_iff.mp along
    exact ⟨next, leads⟩

/-- With the bound on nesting, only a parenthesis that would be too deep can no
longer follow. -/
theorem Reading.Reads.mem_expected_iff {reading : Reading} {words : List Word}
    (reads : reading.Reads words) (spelled : Word.AllSpelled words)
    (kind : Token.Kind) :
    (kind ∈ reading.expected ∧
        (kind = .openParen → Word.opened words < Word.closed words + 64)) ↔
      ∃ lexeme, Word.Begin Expression.Accepts (words ++ [(kind, lexeme)]) := by
  constructor
  · rintro ⟨expected, shallow⟩
    obtain ⟨lexeme, more, text, tokens, expression, cut, written, unopened, derives⟩ :=
      reads.covers.exists_text_extending spelled expected
    have extended : Word.NestedWithin Expression.maxReadDepth (words ++ [(kind, lexeme)]) :=
      reads.nested.append_word shallow
    have nested := extended.append_unopened unopened
    rw [← written] at nested
    exact ⟨lexeme, text, tokens,
      ⟨expression, Expression.read_of_nested cut derives nested⟩, cut,
      written ▸ List.prefix_append _ _⟩
  · rintro ⟨lexeme, text, tokens, ⟨expression, success⟩, cut, begins⟩
    obtain ⟨same, sameCut, derives, nested⟩ := Expression.derives_of_read success
    rw [cut] at sameCut
    cases sameCut
    constructor
    · exact (reads.covers.mem_expected_iff spelled kind).mpr
        ⟨lexeme, text, tokens, ⟨tokens, expression, cut, derives⟩, cut, begins⟩
    · rintro rfl
      obtain ⟨more, split⟩ := begins
      rw [← split] at nested
      exact nested.left.room

end DiceOdds
