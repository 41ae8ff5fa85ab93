import DiceOdds.Proofs.InputLines
import DiceOdds.Proofs.PrintedWords

/-!
# The lines of a printed report

A report is put together from texts without line feeds, so the lines that are read
back from what is printed are the lines of the report.
-/

namespace DiceOdds

/-! ## Texts on one line -/

/-- The text has no line feed. -/
def Text.OnOneLine (text : String) : Prop :=
  '\n' ∉ text.toList

instance (text : String) : Decidable (Text.OnOneLine text) :=
  inferInstanceAs (Decidable (¬ '\n' ∈ text.toList))

theorem Text.OnOneLine.append {first second : String} (firstLine : Text.OnOneLine first)
    (secondLine : Text.OnOneLine second) : Text.OnOneLine (first ++ second) := by
  rw [Text.OnOneLine, String.toList_append, List.mem_append, not_or]
  exact ⟨firstLine, secondLine⟩

theorem Text.OnOneLine.join {texts : List String}
    (each : ∀ text ∈ texts, Text.OnOneLine text) : Text.OnOneLine (String.join texts) := by
  intro member
  rw [String.toList_join, List.mem_flatMap] at member
  obtain ⟨text, listed, inside⟩ := member
  exact each text listed inside

theorem Text.OnOneLine.intercalate {separator : String} {texts : List String}
    (between : Text.OnOneLine separator) (each : ∀ text ∈ texts, Text.OnOneLine text) :
    Text.OnOneLine (separator.intercalate texts) := by
  induction texts with
  | nil => exact List.not_mem_nil
  | cons text texts induction =>
      obtain ⟨head, tail⟩ := List.forall_mem_cons.mp each
      cases texts with
      | nil => rwa [String.intercalate_singleton]
      | cons next texts =>
          rw [String.intercalate_cons_cons]
          exact (head.append between).append (induction tail)

theorem Text.onOneLine_pushn {character : Char} (other : character ≠ '\n') (times : Nat) :
    Text.OnOneLine ("".pushn character times) := by
  induction times with
  | zero => exact List.not_mem_nil
  | succ times induction =>
      have pushed : ("".pushn character (times + 1)).toList =
          ("".pushn character times).toList ++ [character] :=
        String.toList_push character
      rw [Text.OnOneLine, pushed, List.mem_append, not_or, List.mem_singleton]
      exact ⟨induction, other.symm⟩

theorem Text.onOneLine_of_noSpace {text : String} (none : Text.NoSpace text.toList) :
    Text.OnOneLine text := by
  intro member
  have space : Text.isSpace '\n' = false := none '\n' member
  contradiction

theorem Text.onOneLine_nat (number : Nat) : Text.OnOneLine (toString number) := by
  apply Text.onOneLine_of_noSpace
  have digits : (toString number).toList = Nat.toDigits 10 number := Nat.toList_repr
  rw [digits]
  exact (Token.isDigits_toDigits number).noSpace

theorem Text.onOneLine_int (number : Int) : Text.OnOneLine (toString number) := by
  cases number with
  | ofNat number => exact Text.onOneLine_nat number
  | negSucc number =>
      have minus : Text.OnOneLine "-" := by
        decide
      exact minus.append (Text.onOneLine_nat (number + 1))

theorem Expression.text_onOneLine {text : String} {expression : Expression}
    (success : Expression.read text = .ok expression) :
    Text.OnOneLine expression.text := by
  obtain ⟨tokens, cut, written⟩ :=
    Expression.tokenize_text (Expression.readable_of_read success).1
  have spelled := (Token.allSpelled_of_tokenize cut).words
  rw [written] at spelled
  rw [expression.text_eq_layout]
  apply Text.OnOneLine.join
  intro spaced member
  obtain ⟨word, listed, rfl⟩ := List.mem_map.mp member
  have line : Text.OnOneLine word.2 := Text.onOneLine_of_noSpace (spelled word listed).noSpace
  have blank : Text.OnOneLine " " := by
    decide
  rw [Word.spaced]
  split
  · exact (blank.append line).append blank
  · exact line

/-- Lines that are each ended by a line feed are read back as they are. -/
theorem Text.lined_join {lines : List String} (each : ∀ line ∈ lines, Text.OnOneLine line) :
    Text.Lined (String.join (lines.map fun line => line ++ "\n")).toList
      (lines.map String.toList) := by
  induction lines with
  | nil => exact .nil
  | cons line lines induction =>
      obtain ⟨head, tail⟩ := List.forall_mem_cons.mp each
      have parted : (String.join ((line :: lines).map fun line => line ++ "\n")).toList =
          line.toList ++ '\n' :: (String.join (lines.map fun line => line ++ "\n")).toList := by
        rw [List.map_cons, String.join_cons, String.toList_append, String.toList_append,
          List.append_assoc]
        rfl
      rw [parted]
      exact .closed head (induction tail)

/-! ## Reports -/

theorem Report.alignRight_onOneLine (width : Nat) {text : String}
    (line : Text.OnOneLine text) : Text.OnOneLine (Report.alignRight width text) :=
  (Text.onOneLine_pushn (by decide) (width - text.length)).append line

theorem Report.row_onOneLine {outcome frequency share : String}
    (outcomeLine : Text.OnOneLine outcome) (frequencyLine : Text.OnOneLine frequency)
    (shareLine : Text.OnOneLine share) :
    Text.OnOneLine (Report.row outcome frequency share) := by
  have bar : Text.OnOneLine " | " := by
    decide
  have outcomeCell := Report.alignRight_onOneLine 8 outcomeLine
  have frequencyCell := Report.alignRight_onOneLine 20 frequencyLine
  have shareCell := Report.alignRight_onOneLine 11 shareLine
  exact (((outcomeCell.append bar).append frequencyCell).append bar).append shareCell

theorem Report.percent_onOneLine (share : Binary64) :
    Text.OnOneLine (Report.percent share) := by
  have point : Text.OnOneLine "." := by
    decide
  have sign : Text.OnOneLine "%" := by
    decide
  have zero : '0' ≠ '\n' := by
    decide
  exact ((((Text.onOneLine_nat _).append point).append (Text.onOneLine_pushn zero _)).append
    (Text.onOneLine_nat _)).append sign

theorem Report.rows_onOneLine (report : Report) :
    ∀ line ∈ report.rows, Text.OnOneLine line := by
  intro line member
  rw [report.rows_eq] at member
  obtain ⟨outcome, _, rfl⟩ := List.mem_map.mp member
  exact Report.row_onOneLine (Text.onOneLine_int _) (Text.onOneLine_nat _)
    (Report.percent_onOneLine _)

/-- No line of a report has a line feed. -/
theorem Report.lines_onOneLine {report : Report} {roll : String}
    (normalizedLine : Text.OnOneLine report.normalized) (rollLine : Text.OnOneLine roll) :
    ∀ line ∈ report.lines roll, Text.OnOneLine line := by
  have outcomesLine : Text.OnOneLine (", ".intercalate report.odds.outcomeTexts) := by
    apply Text.OnOneLine.intercalate (by decide)
    intro text member
    obtain ⟨outcome, _, rfl⟩ := List.mem_map.mp member
    exact Text.onOneLine_int outcome.toInt
  have header : Text.OnOneLine (Report.row "Outcome" "Frequency" "Probability") :=
    Report.row_onOneLine (by decide) (by decide) (by decide)
  have rule : Text.OnOneLine Report.rule := by
    decide
  rw [Report.lines, List.forall_mem_append]
  refine ⟨?_, report.rows_onOneLine⟩
  simp only [List.forall_mem_cons, List.not_mem_nil, false_implies, implies_true, and_true]
  refine ⟨?_, ?_, ?_, ?_, ?_, ?_, header, rule⟩
  · exact .append (by decide) normalizedLine
  · exact .append (.append (.append (by decide) (Text.onOneLine_int _)) (by decide))
      (Text.onOneLine_int _)
  · exact .append (by decide) rollLine
  · exact .append (.append (by decide) outcomesLine) (by decide)
  · exact .append (by decide) (Text.onOneLine_nat _)
  · decide

/-- The lines of a printed report are those that were laid out. -/
theorem Report.lined_text {report : Report}
    (normalizedLine : Text.OnOneLine report.normalized) :
    Text.Lined report.text.toList
      ((report.lines (toString report.rolled.toInt)).map String.toList) :=
  Text.lined_join (Report.lines_onOneLine normalizedLine
    (Text.onOneLine_int report.rolled.toInt))

end DiceOdds
