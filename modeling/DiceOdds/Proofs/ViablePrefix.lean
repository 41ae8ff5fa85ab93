import DiceOdds.Proofs.TokenCuts

/-!
# The beginnings of expressions

The kinds of the words decide where reading stands: in front of an operand or
behind one, inside so many open groups.  From every place that reading reaches
an operand and closing parentheses lead to the end of an expression, and a kind
of word leads on from there exactly when it is listed as expected.
-/

namespace DiceOdds

/-- Where reading stands, as far as the kinds of words decide it: in front of an
operand or behind one, inside so many open groups. -/
inductive Place where
  | before (depth : Nat)
  | behind (depth : Nat)
  deriving DecidableEq, Repr

/-- Where a word of a kind leads, if it may stand at this place. -/
def Place.next : Place → Token.Kind → Option Place
  | .before depth, .integer => some (.behind depth)
  | .before depth, .dice => some (.behind depth)
  | .before depth, .openParen => some (.before (depth + 1))
  | .behind depth, .plus => some (.before depth)
  | .behind depth, .minus => some (.before depth)
  | .behind depth, .star => some (.before depth)
  | .behind depth, .slash => some (.before depth)
  | .behind (depth + 1), .closeParen => some (.behind depth)
  | _, _ => none

/-- Where words lead one after another. -/
def Place.along (place : Place) (words : List Word) : Option Place :=
  words.foldlM (fun place word => place.next word.1) place

theorem Place.along_append {place middle : Place} {left : List Word}
    (first : place.along left = some middle) (right : List Word) :
    place.along (left ++ right) = middle.along right := by
  rw [Place.along, List.foldlM_append]
  rw [Place.along] at first
  rw [first]
  rfl

theorem Place.along_cons (place : Place) (word : Word) (words : List Word) :
    place.along (word :: words) = place.next word.1 >>= fun next => next.along words :=
  List.foldlM_cons

theorem Token.Kind.JoinsTerms.next {kind : Token.Kind} {operator : Operator}
    (joins : kind.JoinsTerms operator) (depth : Nat) :
    (Place.behind depth).next kind = some (.before depth) := by
  cases joins <;> rfl

theorem Token.Kind.JoinsAtoms.next {kind : Token.Kind} {operator : Operator}
    (joins : kind.JoinsAtoms operator) (depth : Nat) :
    (Place.behind depth).next kind = some (.before depth) := by
  cases joins <;> rfl

theorem Place.along_join {left right : List Word} {sign : Word} {depth : Nat}
    (first : (Place.before depth).along left = some (.behind depth))
    (joins : (Place.behind depth).next sign.1 = some (.before depth))
    (second : (Place.before depth).along right = some (.behind depth)) :
    (Place.before depth).along (left ++ sign :: right) = some (.behind depth) := by
  rw [Place.along_append first, Place.along_cons, joins]
  exact second

mutual

/-- The words of an expression lead from the front of an operand to its back. -/
theorem Expression.Derives.along {words : List Word} {expression : Expression}
    (derives : Expression.Derives words expression) (depth : Nat) :
    (Place.before depth).along words = some (.behind depth) := by
  cases derives with
  | term single => exact single.along depth
  | combine left joins right =>
      exact Place.along_join (left.along depth) (joins.next depth) (right.along depth)

theorem Term.Derives.along {words : List Word} {term : Term}
    (derives : Term.Derives words term) (depth : Nat) :
    (Place.before depth).along words = some (.behind depth) := by
  cases derives with
  | atom single => exact single.along depth
  | combine left joins right =>
      exact Place.along_join (left.along depth) (joins.next depth) (right.along depth)

theorem Atom.Derives.along {words : List Word} {atom : Atom}
    (derives : Atom.Derives words atom) (depth : Nat) :
    (Place.before depth).along words = some (.behind depth) := by
  cases derives with
  | constant _ => rfl
  | dice _ => rfl
  | @group words opening closing inner derives =>
      have inside := derives.along (depth + 1)
      exact Place.along_append inside [(.closeParen, closing)]

end

def Reading.place : Reading → Place
  | .beforeOperand groups _ => .before groups.length
  | .afterOperand groups _ _ => .behind groups.length

theorem Pending.SumCovers.along {sum : Option (Expression × Operator)}
    {words : List Word} (covers : Pending.SumCovers sum words) (depth : Nat) :
    (Place.before depth).along words = Option.some (.before depth) := by
  cases covers with
  | none => rfl
  | @some words sign lhs operator left joins =>
      rw [Place.along_append (left.along depth), Place.along_cons, joins.next depth]
      rfl

theorem Pending.ProductCovers.along {product : Option (Term × Operator)}
    {words : List Word} (covers : Pending.ProductCovers product words) (depth : Nat) :
    (Place.before depth).along words = Option.some (.before depth) := by
  cases covers with
  | none => rfl
  | @some words sign lhs operator left joins =>
      rw [Place.along_append (left.along depth), Place.along_cons, joins.next depth]
      rfl

theorem Pending.Covers.along {pending : Pending} {words : List Word}
    (covers : pending.Covers words) (depth : Nat) :
    (Place.before depth).along words = some (.before depth) := by
  cases covers with
  | intro sum product =>
      rw [Place.along_append (sum.along depth)]
      exact product.along depth

theorem OpenGroup.AllCover.along {groups : List OpenGroup} {words : List Word}
    (covers : OpenGroup.AllCover groups words) :
    (Place.before 0).along words = some (.before groups.length) := by
  induction covers with
  | nil => rfl
  | @cons group outer outerWords words opening outside waiting induction =>
      have inside : (Place.before 0).along (outerWords ++ words) =
          some (.before outer.length) := by
        rw [Place.along_append induction]
        exact waiting.along outer.length
      rw [Place.along_append inside]
      rfl

/-- The words that have been read lead to where reading stands. -/
theorem Reading.Covers.along {reading : Reading} {words : List Word}
    (covers : reading.Covers words) :
    (Place.before 0).along words = some reading.place := by
  cases covers with
  | beforeOperand outside waiting =>
      rw [Place.along_append outside.along]
      exact waiting.along _
  | afterOperand outside sum derives =>
      rw [List.append_assoc, Place.along_append outside.along,
        Place.along_append (sum.along _)]
      exact derives.along _

/-- The kinds of words that reading expects. -/
def Reading.expected : Reading → List Token.Kind
  | .beforeOperand _ _ => Token.Kind.operandStarts
  | .afterOperand groups _ _ => Token.Kind.afterOperand groups

theorem Reading.nodup_expected (reading : Reading) : reading.expected.Nodup := by
  match reading with
  | .beforeOperand _ _ => simp [Reading.expected, Token.Kind.operandStarts]
  | .afterOperand [] _ _ => simp [Reading.expected, Token.Kind.afterOperand]
  | .afterOperand (_ :: _) _ _ => simp [Reading.expected, Token.Kind.afterOperand]

/-- The expected kinds are those that lead on. -/
theorem Reading.mem_expected_iff {reading : Reading} {kind : Token.Kind} :
    kind ∈ reading.expected ↔ (reading.place.next kind).isSome := by
  match reading with
  | .beforeOperand _ _ =>
      cases kind <;> simp [Reading.expected, Token.Kind.operandStarts, Reading.place,
        Place.next]
  | .afterOperand [] _ _ =>
      cases kind <;> simp [Reading.expected, Token.Kind.afterOperand, Reading.place,
        Place.next]
  | .afterOperand (_ :: _) _ _ =>
      cases kind <;> simp [Reading.expected, Token.Kind.afterOperand, Reading.place,
        Place.next]

theorem Token.one_spells : Token.Kind.integer.Spells "1".toList := by
  refine ⟨List.cons_ne_nil _ _, ?_⟩
  intro character member
  cases List.mem_singleton.mp member
  rfl

theorem Token.die_spells : Token.Kind.dice.Spells "1d1".toList :=
  ⟨['1'], 'd', ['1'], rfl, .inl Token.one_spells, rfl, .inl Token.one_spells⟩

/-- Some words that open no parenthesis complete an expression. -/
def Word.Completable (words : List Word) : Prop :=
  ∃ more expression, Word.AllSpelled more ∧ Word.opened more = 0 ∧
    Expression.Derives (words ++ more) expression

theorem Word.Completable.of_append {words : List Word} {word : Word}
    (completable : Word.Completable (words ++ [word]))
    (spells : word.1.Spells word.2.toList) (noOpening : word.1 ≠ .openParen) :
    Word.Completable words := by
  obtain ⟨more, expression, spelled, unopened, derives⟩ := completable
  refine ⟨word :: more, expression, ?_, ?_, ?_⟩
  · exact List.forall_mem_cons.mpr ⟨spells, spelled⟩
  · rw [Word.opened_cons, unopened, if_neg noOpening]
  · rw [List.append_cons]
    exact derives

theorem Reading.Covers.completable_afterOperand {groups : List OpenGroup}
    {sum : Option (Expression × Operator)} {term : Term} {words : List Word}
    (covers : (Reading.afterOperand groups sum term).Covers words) :
    Word.Completable words := by
  induction groups generalizing sum term words with
  | nil =>
      cases covers with
      | afterOperand outside sumCovers derives =>
          cases outside
          have whole := sumCovers.complete derives
          refine ⟨[], .complete sum term, ?_, rfl, ?_⟩
          · intro word member
            contradiction
          · rw [List.append_nil]
            exact whole
  | cons group outer induction =>
      cases covers with
      | afterOperand outside sumCovers derives =>
          cases outside with
          | @cons _ _ outerWords words opening outside waiting =>
              have closed := @Reading.closeGroup_covers sum term _ _ group outer
                outerWords words opening ")" outside waiting sumCovers derives
              exact (induction closed).of_append rfl (by decide)

/-- What has been read is the beginning of an expression. -/
theorem Reading.Covers.completable {reading : Reading} {words : List Word}
    (covers : reading.Covers words) : Word.Completable words := by
  cases covers with
  | afterOperand outside sumCovers derives =>
      exact (Reading.Covers.afterOperand outside sumCovers
        derives).completable_afterOperand
  | beforeOperand outside waiting =>
      have one : Atom.Derives [(.integer, "1")] (.constant 1) :=
        Atom.Derives.constant (by decide)
      have supplied := Reading.supply_covers outside waiting one
      exact supplied.completable_afterOperand.of_append Token.one_spells (by decide)

/-- Each expected kind has a word that reading goes on with, however many groups
are open. -/
theorem Reading.Covers.exists_extension {reading : Reading} {words : List Word}
    {kind : Token.Kind} (covers : reading.Covers words)
    (expected : kind ∈ reading.expected) :
    ∃ lexeme next, kind.Spells lexeme.toList ∧
      Reading.Covers next (words ++ [(kind, lexeme)]) := by
  cases covers with
  | @beforeOperand groups pending groupWords pendingWords outside waiting =>
      cases kind with
      | integer =>
          have one : Atom.Derives [(.integer, "1")] (.constant 1) :=
            Atom.Derives.constant (by decide)
          exact ⟨"1", _, Token.one_spells, Reading.supply_covers outside waiting one⟩
      | dice =>
          have die : Atom.Derives [(.dice, "1d1")] (.dice (.sum 1 (.numbered 1)) "1d1") :=
            Atom.Derives.dice (by decide)
          exact ⟨"1d1", _, Token.die_spells, Reading.supply_covers outside waiting die⟩
      | openParen =>
          have opened : OpenGroup.AllCover (⟨0, pending⟩ :: groups)
              (groupWords ++ pendingWords ++ [(.openParen, "(")]) :=
            .cons outside waiting
          have inside := Reading.Covers.beforeOperand opened Pending.start_covers
          rw [List.append_nil] at inside
          exact ⟨"(", _, rfl, inside⟩
      | _ => simp [Reading.expected, Token.Kind.operandStarts] at expected
  | @afterOperand groups sum term groupWords sumWords termWords outside sumCovers derives =>
      cases kind with
      | plus =>
          exact ⟨"+", _, rfl, Reading.joinTerms_covers outside sumCovers derives .plus⟩
      | minus =>
          exact ⟨"-", _, rfl, Reading.joinTerms_covers outside sumCovers derives .minus⟩
      | star =>
          exact ⟨"*", _, rfl, Reading.joinAtoms_covers outside sumCovers derives .star⟩
      | slash =>
          exact ⟨"/", _, rfl, Reading.joinAtoms_covers outside sumCovers derives .slash⟩
      | closeParen =>
          cases outside with
          | nil => simp [Reading.expected, Token.Kind.afterOperand] at expected
          | cons outside waiting =>
              exact ⟨")", _, rfl,
                Reading.closeGroup_covers outside waiting sumCovers derives⟩
      | _ => cases groups <;> simp [Reading.expected, Token.Kind.afterOperand] at expected

end DiceOdds
