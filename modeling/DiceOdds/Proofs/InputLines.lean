import DiceOdds.CommandLine
import Mathlib.Data.List.Forall2
import Mathlib.Data.List.TakeWhile

/-!
# The lines of an input

A line ends at a line feed, which is not part of it, and what stands behind the
last line feed is one more line unless it is empty.  White space around a line does
not count, so it makes no difference whether carriage returns stand in front of the
line feeds.
-/

namespace DiceOdds

/-- The lines of a text.  Only a last line may lack its line feed, and it is not empty
then. -/
inductive Text.Lined : List Char → List (List Char) → Prop where
  | nil : Text.Lined [] []
  | unclosed {line : List Char} : '\n' ∉ line → line ≠ [] → Text.Lined line [line]
  | closed {line rest : List Char} {lines : List (List Char)} :
      '\n' ∉ line → Text.Lined rest lines →
      Text.Lined (line ++ '\n' :: rest) (line :: lines)

theorem CommandLine.lines_cons {character : Char} (inside : character ≠ '\n')
    (rest : List Char) :
    CommandLine.lines (character :: rest) =
      match CommandLine.lines rest with
      | [] => [[character]]
      | line :: more => (character :: line) :: more :=
  CommandLine.lines.eq_3 character rest inside

theorem CommandLine.lines_closed {line : List Char} (inside : '\n' ∉ line)
    (rest : List Char) :
    CommandLine.lines (line ++ '\n' :: rest) = line :: CommandLine.lines rest := by
  induction line with
  | nil => rfl
  | cons character line induction =>
      rw [List.mem_cons, not_or] at inside
      rw [List.cons_append, CommandLine.lines_cons (Ne.symm inside.1), induction inside.2]

theorem CommandLine.lines_unclosed {line : List Char} (inside : '\n' ∉ line)
    (inhabited : line ≠ []) : CommandLine.lines line = [line] := by
  induction line with
  | nil => contradiction
  | cons character line induction =>
      rw [List.mem_cons, not_or] at inside
      rw [CommandLine.lines_cons (Ne.symm inside.1)]
      cases line with
      | nil => rfl
      | cons next line => rw [induction inside.2 (List.cons_ne_nil next line)]

theorem Text.lined_lines (text : List Char) : Text.Lined text (CommandLine.lines text) := by
  induction text with
  | nil => exact .nil
  | cons character rest induction =>
      by_cases ends : character = '\n'
      · subst character
        exact .closed List.not_mem_nil induction
      · rw [CommandLine.lines_cons ends]
        generalize CommandLine.lines rest = lines at induction
        cases induction with
        | nil => exact .unclosed (by simpa using Ne.symm ends) (List.cons_ne_nil _ _)
        | unclosed inside _ =>
            exact .unclosed (List.not_mem_cons_of_ne_of_not_mem (Ne.symm ends) inside)
              (List.cons_ne_nil _ _)
        | closed inside later =>
            exact .closed (List.not_mem_cons_of_ne_of_not_mem (Ne.symm ends) inside) later

/-- Every text has exactly one list of lines. -/
theorem Text.lined_iff {text : List Char} {lines : List (List Char)} :
    Text.Lined text lines ↔ CommandLine.lines text = lines := by
  constructor
  · intro lined
    induction lined with
    | nil => rfl
    | unclosed inside inhabited => exact CommandLine.lines_unclosed inside inhabited
    | closed inside _ induction => rw [CommandLine.lines_closed inside, induction]
  · rintro rfl
    exact Text.lined_lines text

/-- The text of some lines that are all closed. -/
def Text.ofLines (lines : List (List Char)) : List Char :=
  lines.flatMap fun line => line ++ ['\n']

theorem CommandLine.lines_ofLines {lines : List (List Char)}
    (inside : ∀ line ∈ lines, '\n' ∉ line) (rest : List Char) :
    CommandLine.lines (Text.ofLines lines ++ rest) = lines ++ CommandLine.lines rest := by
  induction lines with
  | nil => rfl
  | cons line lines induction =>
      obtain ⟨head, tail⟩ := List.forall_mem_cons.mp inside
      have parted : Text.ofLines (line :: lines) ++ rest =
          line ++ '\n' :: (Text.ofLines lines ++ rest) := by
        simp [Text.ofLines]
      rw [parted, CommandLine.lines_closed head, induction tail, List.cons_append]

/-- A line feed behind a last line that is not empty adds no line. -/
theorem CommandLine.lines_close {last : Char} (inside : last ≠ '\n') (text : List Char) :
    CommandLine.lines (text ++ [last, '\n']) = CommandLine.lines (text ++ [last]) := by
  induction text with
  | nil =>
      rw [List.nil_append, List.nil_append, CommandLine.lines_cons inside,
        CommandLine.lines_cons inside]
      rfl
  | cons character text induction =>
      by_cases ends : character = '\n'
      · subst character
        exact congrArg (List.cons []) induction
      · rw [List.cons_append, List.cons_append, CommandLine.lines_cons ends,
          CommandLine.lines_cons ends, induction]

/-! ## Carriage returns -/

/-- The second text has further carriage returns in front of some of its line feeds. -/
inductive Text.Returned : List Char → List Char → Prop where
  | nil : Text.Returned [] []
  | keep (character : Char) {text other : List Char} :
      Text.Returned text other → Text.Returned (character :: text) (character :: other)
  | insert {text other : List Char} :
      Text.Returned text other → Text.Returned ('\n' :: text) ('\r' :: '\n' :: other)

theorem Text.Returned.refl (text : List Char) : Text.Returned text text := by
  induction text with
  | nil => exact .nil
  | cons character text induction => exact induction.keep character

theorem Text.Returned.append {text other : List Char} (returned : Text.Returned text other)
    (front : List Char) : Text.Returned (front ++ text) (front ++ other) := by
  induction front with
  | nil => exact returned
  | cons character front induction => exact induction.keep character

/-- Line for line the texts differ in a carriage return at the end at most. -/
theorem Text.Returned.lines {text other : List Char} (returned : Text.Returned text other) :
    List.Forall₂ (fun line otherLine => otherLine = line ∨ otherLine = line ++ ['\r'])
      (CommandLine.lines text) (CommandLine.lines other) := by
  induction returned with
  | nil => exact .nil
  | @keep character text other _ induction =>
      by_cases ends : character = '\n'
      · subst character
        exact .cons (.inl rfl) induction
      · rw [CommandLine.lines_cons ends, CommandLine.lines_cons ends]
        generalize CommandLine.lines text = lines at induction
        generalize CommandLine.lines other = otherLines at induction
        cases induction with
        | nil => exact .cons (.inl rfl) .nil
        | cons first later =>
            refine .cons ?_ later
            rcases first with rfl | rfl
            · exact .inl rfl
            · exact .inr rfl
  | insert _ induction => exact .cons (.inr rfl) induction

/-! ## White space -/

theorem Text.trim_append_space {character : Char} (space : Text.isSpace character = true)
    (text : List Char) : Text.trim (text ++ [character]) = Text.trim text := by
  rw [Text.trim, Text.trim, List.dropWhile_append]
  split
  · rename_i blank
    rw [List.isEmpty_iff] at blank
    rw [blank, List.dropWhile_cons_of_pos space]
    rfl
  · rw [List.reverse_append, List.reverse_singleton, List.singleton_append,
      List.dropWhile_cons_of_pos space]

/-- A text has nothing left without its white space exactly when it is all white space. -/
theorem Text.trim_eq_nil_iff {text : List Char} :
    Text.trim text = [] ↔ ∀ character ∈ text, Text.isSpace character = true := by
  rw [Text.trim, List.reverse_eq_nil_iff, List.dropWhile_eq_nil_iff]
  constructor
  · intro kept
    rw [← List.dropWhile_eq_nil_iff]
    -- The rest would begin with a character that is no white space.
    by_contra inhabited
    have first := List.head_dropWhile_not Text.isSpace inhabited
    have space := kept _ (List.mem_reverse.mpr (List.head_mem inhabited))
    rw [space] at first
    contradiction
  · intro blank
    rw [List.dropWhile_eq_nil_iff.mpr blank]
    exact fun _ absurd => by contradiction

/-- The arguments spell out no expression exactly when they are all white space. -/
theorem CommandLine.expression?_eq_none_iff {arguments : List String} :
    CommandLine.expression? arguments = none ↔
      ∀ argument ∈ arguments, ∀ character ∈ argument.toList,
        Text.isSpace character = true := by
  have joined : Text.trim (" ".intercalate arguments).toList = [] ↔
      ∀ argument ∈ arguments, ∀ character ∈ argument.toList,
        Text.isSpace character = true := by
    rw [Text.trim_eq_nil_iff]
    induction arguments with
    | nil => simp
    | cons argument arguments induction =>
        cases arguments with
        | nil => simp
        | cons next arguments =>
            have blank : ∀ character ∈ " ".toList, Text.isSpace character = true := by
              have single : " ".toList = [' '] := rfl
              rw [single, List.forall_mem_singleton]
              decide
            rw [List.forall_mem_cons, ← induction, String.intercalate_cons_cons,
              String.toList_append, String.toList_append, List.forall_mem_append,
              List.forall_mem_append, and_iff_left blank]
  rw [← joined, CommandLine.expression?]
  simp

end DiceOdds
