import DiceOdds.Proofs.TokenSpelling
import Mathlib.Computability.RegularExpressions

/-!
# Patterns of tokens

The tokens of each kind are those of a regular expression.  A text matches the pattern
of a kind exactly when it is spelled as a token of this kind.
-/

namespace DiceOdds

abbrev Pattern := RegularExpression Char

/-- Any one of some characters. -/
def Pattern.oneOf (characters : List Char) : Pattern :=
  characters.foldr (fun character others => .char character + others) 0

/-- A pattern once or more often in a row. -/
def Pattern.repeated (pattern : Pattern) : Pattern :=
  pattern * pattern.star

def Pattern.digits : Pattern :=
  .repeated (.oneOf ['0', '1', '2', '3', '4', '5', '6', '7', '8', '9'])

/-- The pattern of the tokens of a kind. -/
def Token.Kind.pattern : Token.Kind → Pattern
  | .dice =>
      (.digits + .oneOf ['m', 'M'] * .oneOf ['i', 'I']) * .oneOf ['d', 'D'] *
        (.digits + .oneOf ['f', 'F'])
  | .integer => .digits
  | .plus => .char '+'
  | .minus => .char '-'
  | .star => .char '*'
  | .slash => .char '/'
  | .openParen => .char '('
  | .closeParen => .char ')'

/-- A text matches the pattern of a kind. -/
def Token.Kind.Matches (kind : Token.Kind) (text : List Char) : Prop :=
  text ∈ kind.pattern.matches'

theorem Pattern.mem_oneOf_iff {characters text : List Char} :
    text ∈ (Pattern.oneOf characters).matches' ↔
      ∃ character ∈ characters, text = [character] := by
  induction characters with
  | nil => simp [Pattern.oneOf, Language.notMem_zero]
  | cons first characters induction =>
      have parts : (Pattern.oneOf (first :: characters)).matches' =
          {[first]} + (Pattern.oneOf characters).matches' := rfl
      rw [parts, Language.mem_add, induction, List.exists_mem_cons_iff]
      rfl

/-- Characters of a class in a row match the class as often as there are any. -/
theorem Pattern.mem_repeated_oneOf_iff {characters text : List Char} :
    text ∈ (Pattern.repeated (.oneOf characters)).matches' ↔
      text ≠ [] ∧ ∀ character ∈ text, character ∈ characters := by
  rw [Pattern.repeated, RegularExpression.matches'_mul, Language.mem_mul]
  constructor
  · rintro ⟨first, firstMatches, others, ⟨pieces, rfl, piecesMatch⟩, rfl⟩
    obtain ⟨head, headMember, rfl⟩ := Pattern.mem_oneOf_iff.mp firstMatches
    refine ⟨List.cons_ne_nil _ _, ?_⟩
    intro character member
    rcases List.mem_cons.mp member with rfl | later
    · exact headMember
    · obtain ⟨piece, pieceMember, inPiece⟩ := List.mem_flatten.mp later
      obtain ⟨single, singleMember, rfl⟩ :=
        Pattern.mem_oneOf_iff.mp (piecesMatch piece pieceMember)
      rw [List.mem_singleton.mp inPiece]
      exact singleMember
  · rintro ⟨filled, members⟩
    obtain ⟨head, others, rfl⟩ := List.exists_cons_of_ne_nil filled
    rw [List.forall_mem_cons] at members
    refine ⟨[head], Pattern.mem_oneOf_iff.mpr ⟨head, members.1, rfl⟩, others, ?_, rfl⟩
    have joined : (others.map fun character => [character]).flatten = others := by
      rw [← List.flatMap_def, List.flatMap_singleton']
    refine ⟨_, joined.symm, ?_⟩
    intro piece pieceMember
    obtain ⟨character, member, rfl⟩ := List.mem_map.mp pieceMember
    exact Pattern.mem_oneOf_iff.mpr ⟨character, members.2 character member, rfl⟩

theorem Token.isDigit_iff_mem {character : Char} :
    Token.isDigit character ↔
      character ∈ ['0', '1', '2', '3', '4', '5', '6', '7', '8', '9'] := by
  constructor
  · intro digit
    have bounds := Token.isDigit_iff.mp digit
    have lower : 48 ≤ character.toNat := bounds.1
    have upper : character.toNat ≤ 57 := bounds.2
    simp only [List.mem_cons, List.not_mem_nil, or_false, ← Char.toNat_inj,
      Char.reduceToNat]
    omega
  · exact List.all_eq_true.mp rfl character

theorem Pattern.mem_digits_iff {text : List Char} :
    text ∈ Pattern.digits.matches' ↔ Token.IsDigits text := by
  simp only [Pattern.digits, Pattern.mem_repeated_oneOf_iff, Token.IsDigits,
    Token.isDigit_iff_mem]

theorem Pattern.mem_middle_iff {text : List Char} :
    text ∈ (Pattern.oneOf ['m', 'M'] * Pattern.oneOf ['i', 'I']).matches' ↔
      Dice.isMiddleWord text := by
  rw [RegularExpression.matches'_mul, Language.mem_mul, Dice.isMiddleWord_iff]
  constructor
  · rintro ⟨before, beforeMatches, after, afterMatches, rfl⟩
    obtain ⟨first, firstMember, rfl⟩ := Pattern.mem_oneOf_iff.mp beforeMatches
    obtain ⟨second, secondMember, rfl⟩ := Pattern.mem_oneOf_iff.mp afterMatches
    exact ⟨first, firstMember, second, secondMember, rfl⟩
  · rintro ⟨first, firstMember, second, secondMember, rfl⟩
    exact ⟨[first], Pattern.mem_oneOf_iff.mpr ⟨first, firstMember, rfl⟩, [second],
      Pattern.mem_oneOf_iff.mpr ⟨second, secondMember, rfl⟩, rfl⟩

/-- A text is spelled as a token of a kind exactly when it matches the pattern of the
kind. -/
theorem Token.Kind.spells_iff_matches {kind : Token.Kind} {text : List Char} :
    kind.Spells text ↔ kind.Matches text := by
  cases kind with
  | integer => exact Pattern.mem_digits_iff.symm
  | dice =>
      simp only [Token.Kind.Spells, Token.Kind.Matches, Token.Kind.pattern, Dice.IsWritten,
        Faces.IsWritten, RegularExpression.matches'_mul, RegularExpression.matches'_add,
        Language.mem_mul, Language.mem_add, ← Pattern.mem_middle_iff,
        Pattern.mem_digits_iff, Pattern.mem_oneOf_iff, Dice.isDelimiter_iff,
        Faces.isFudgeWord_iff]
      constructor
      · rintro ⟨count, delimiter, faces, rfl, counted, delimits, written⟩
        exact ⟨count ++ [delimiter],
          ⟨count, counted, [delimiter], ⟨delimiter, delimits, rfl⟩, rfl⟩, faces, written,
          (List.append_cons ..).symm⟩
      · rintro ⟨_, ⟨count, counted, _, ⟨delimiter, delimits, rfl⟩, rfl⟩, faces, written, rfl⟩
        exact ⟨count, delimiter, faces, (List.append_cons ..).symm, counted, delimits,
          written⟩
  | _ => exact Iff.rfl

end DiceOdds
