import DiceOdds.Proofs.InputLines
import DiceOdds.Proofs.ReportOutcome
import DiceOdds.Proofs.SameDraws

/-!
# Conversations line by line

Without an expression among the arguments the program answers the lines of its input
one after another.  What it writes for a line depends on the line without the white
space around it and on the draws made for it, and on nothing that came before; so a
line that has no report leaves no trace but its complaint.
-/

namespace DiceOdds

/-! ## What is written for a line -/

/-- What is written for an answer, in front of the next prompt. -/
def Answer.pieces : Option Answer → List Piece
  | none => []
  | some (.ok report) => [.report report]
  | some (.error fault) => [.complaint ("Error: " ++ fault.message ++ "\n")]

theorem Answer.join_output_pieces (render : Report → String) (answer : Option Answer) :
    String.join ((Answer.pieces answer).map (Piece.output render)) =
      Answer.shown render answer := by
  rcases answer with _ | fault | report
  · rfl
  · exact String.append_empty
  · exact String.empty_append

theorem Answer.join_errors_pieces (answer : Option Answer) :
    String.join ((Answer.pieces answer).map Piece.errors) = Answer.complaint answer := by
  rcases answer with _ | fault | report
  · rfl
  · exact String.empty_append
  · rfl

theorem join_map_flatMap {α β : Type} (items : List α) (inner : α → List β)
    (text : β → String) :
    String.join ((items.flatMap inner).map text) =
      String.join (items.map fun item => String.join ((inner item).map text)) := by
  induction items with
  | nil => rfl
  | cons item items induction =>
      rw [List.flatMap_cons, List.map_append, String.join_append, induction, List.map_cons,
        String.join_cons]

section Responding

variable {σ τ : Type} [Roller σ] [Roller τ]

/-- For a line its answer is written and then a prompt. -/
theorem CommandLine.run_respond (line : List Char) (source : σ) (written : List Piece) :
    (CommandLine.respond line source).run written =
      ((), written ++ Answer.pieces (CommandLine.answer? line source) ++
        [.text CommandLine.prompt]) := by
  rw [CommandLine.respond, CommandLine.answer?]
  by_cases blank : (Text.trim line).isEmpty = true
  · rw [if_pos blank, if_pos blank, Answer.pieces, List.append_nil]
    rfl
  · rw [if_neg blank, if_neg blank, Writing.run_bind]
    cases attempt : Report.ofText (String.ofList (Text.trim line)) source with
    | error fault =>
        rw [CommandLine.run_report_of_error attempt]
        rfl
    | ok report =>
        rw [CommandLine.run_report_of_ok attempt]
        rfl

theorem CommandLine.answer?_of_blank {line : List Char} (blank : Text.trim line = [])
    (source : σ) : CommandLine.answer? line source = none := by
  rw [CommandLine.answer?, blank]
  rfl

theorem CommandLine.answer?_of_text {line : List Char} (inhabited : Text.trim line ≠ [])
    (source : σ) :
    CommandLine.answer? line source =
      some (Report.ofText (String.ofList (Text.trim line)) source) := by
  rw [CommandLine.answer?, if_neg]
  rwa [List.isEmpty_iff]

/-- Draws that the dice of an expression show alike lead to the same report or fault. -/
theorem Report.ofText_eq_of_sameAnswers {text : String} {source : σ} {other : τ}
    (same : ∀ expression, Expression.read text = .ok expression →
      Roller.SameAnswers expression.plan source other) :
    Report.ofText text source = Report.ofText text other := by
  cases read : Expression.read text with
  | error fault => rw [Report.ofText_of_not_read read, Report.ofText_of_not_read read]
  | ok expression =>
      rw [Report.ofText_of_read read, Report.ofText_of_read read,
        Expression.roll_eq_of_sameAnswers (some 1000) (same expression read)]

/-- The answer to a line depends on what is left of it without the white space around
it, and on the draws. -/
theorem CommandLine.answer?_eq {line other : List Char} {source : σ} {otherSource : τ}
    (sameText : Text.trim line = Text.trim other)
    (sameDraws : ∀ expression,
      Expression.read (String.ofList (Text.trim line)) = .ok expression →
        Roller.SameAnswers expression.plan source otherSource) :
    CommandLine.answer? line source = CommandLine.answer? other otherSource := by
  by_cases blank : Text.trim line = []
  · rw [CommandLine.answer?_of_blank blank, CommandLine.answer?_of_blank (sameText ▸ blank)]
  · rw [CommandLine.answer?_of_text blank, CommandLine.answer?_of_text (sameText ▸ blank),
      ← sameText, Report.ofText_eq_of_sameAnswers sameDraws]

end Responding

/-! ## The whole conversation -/

section Conversing

variable {σ : Type} [Roller σ]

/-- The answers to some lines, each made with the source of its place. -/
def CommandLine.answers (sources : Nat → σ) (lines : List (List Char)) :
    List (Option Answer) :=
  lines.mapIdx fun index line => CommandLine.answer? line (sources index)

theorem CommandLine.answers_cons (sources : Nat → σ) (line : List Char)
    (lines : List (List Char)) :
    CommandLine.answers sources (line :: lines) =
      CommandLine.answer? line (sources 0) ::
        CommandLine.answers (fun index => sources (index + 1)) lines :=
  List.mapIdx_cons

theorem CommandLine.answers_append (sources : Nat → σ) (earlier later : List (List Char)) :
    CommandLine.answers sources (earlier ++ later) =
      CommandLine.answers sources earlier ++
        CommandLine.answers (fun index => sources (index + earlier.length)) later :=
  List.mapIdx_append

theorem CommandLine.map_answers {α : Type} (sources : Nat → σ) (lines : List (List Char))
    (read : Option Answer → α) :
    (CommandLine.answers sources lines).map read =
      lines.mapIdx fun index line => read (CommandLine.answer? line (sources index)) := by
  apply List.ext_getElem
  · simp [CommandLine.answers]
  · intro index _ _
    simp [CommandLine.answers]

/-- Line for line the same is left without white space, so the answers are the same. -/
theorem CommandLine.answers_eq {lines others : List (List Char)}
    (same : List.Forall₂ (fun line other => Text.trim line = Text.trim other) lines others)
    (sources : Nat → σ) :
    CommandLine.answers sources lines = CommandLine.answers sources others := by
  induction same generalizing sources with
  | nil => rfl
  | cons sameText _ induction =>
      rw [CommandLine.answers_cons, CommandLine.answers_cons, induction,
        CommandLine.answer?_eq sameText fun _ _ => rfl]

theorem CommandLine.run_converse (sources : Nat → σ) (asked : Nat)
    (lines : List (List Char)) (written : List Piece) :
    (CommandLine.converse sources asked lines).run written =
      ((), written ++ (CommandLine.answers (fun index => sources (index + asked)) lines).flatMap
        fun answer => Answer.pieces answer ++ [.text CommandLine.prompt]) := by
  -- The source of the next line stands one place further on.
  induction lines generalizing asked written with
  | nil => exact congrArg (Prod.mk ()) (List.append_nil written).symm
  | cons line lines induction =>
      rw [CommandLine.converse, Writing.run_bind, CommandLine.run_respond, induction,
        CommandLine.answers_cons, List.flatMap_cons]
      simp only [List.append_assoc, Nat.zero_add, Nat.add_assoc, Nat.add_comm 1]

/-- A conversation is what is written for the lines, between a first prompt and a line
end. -/
theorem CommandLine.run_of_blank {arguments : List String}
    (blank : CommandLine.expression? arguments = none) (sources : Nat → σ) (input : String) :
    CommandLine.run sources arguments input =
      { exitCode := 0
        written := [.text CommandLine.prompt] ++
          ((CommandLine.answers sources (CommandLine.lines input.toList)).flatMap
            fun answer => Answer.pieces answer ++ [.text CommandLine.prompt]) ++
          [.text "\n"] } := by
  have conversed := CommandLine.run_converse sources 0 (CommandLine.lines input.toList)
    [.text CommandLine.prompt]
  have ran : (CommandLine.program sources arguments input).run [] =
      (0, ((CommandLine.converse sources 0 (CommandLine.lines input.toList)).run
        [.text CommandLine.prompt]).2 ++ [.text "\n"]) := by
    rw [CommandLine.program, blank]
    rfl
  rw [CommandLine.run, ran, conversed]
  rfl

/-- What a conversation comes to when every piece is shown as some text. -/
theorem CommandLine.join_written {arguments : List String}
    (blank : CommandLine.expression? arguments = none) (sources : Nat → σ) (input : String)
    (text : Piece → String) :
    String.join ((CommandLine.run sources arguments input).written.map text) =
      text (.text CommandLine.prompt) ++
        String.join ((CommandLine.answers sources (CommandLine.lines input.toList)).map
          fun answer => String.join ((Answer.pieces answer).map text) ++
            text (.text CommandLine.prompt)) ++
        text (.text "\n") := by
  have single : ∀ piece, String.join ([piece].map text) = text piece :=
    fun _ => String.empty_append
  rw [CommandLine.run_of_blank blank]
  simp only [List.map_append, String.join_append, join_map_flatMap, single]

theorem CommandLine.output_of_blank {arguments : List String}
    (blank : CommandLine.expression? arguments = none) (render : Report → String)
    (sources : Nat → σ) (input : String) :
    (CommandLine.run sources arguments input).output render =
      CommandLine.prompt ++
        String.join ((CommandLine.answers sources (CommandLine.lines input.toList)).map
          fun answer => Answer.shown render answer ++ CommandLine.prompt) ++ "\n" := by
  rw [Transcript.output, CommandLine.join_written blank]
  simp only [Answer.join_output_pieces, Piece.output]

theorem CommandLine.errors_of_blank {arguments : List String}
    (blank : CommandLine.expression? arguments = none) (sources : Nat → σ) (input : String) :
    (CommandLine.run sources arguments input).errors =
      String.join ((CommandLine.answers sources (CommandLine.lines input.toList)).map
        Answer.complaint) := by
  rw [Transcript.errors, CommandLine.join_written blank]
  simp only [Answer.join_errors_pieces, Piece.errors, String.empty_append,
    String.append_empty]

/-- Inputs whose lines are the same without the white space around them are answered
alike. -/
theorem CommandLine.run_eq_of_lines {arguments : List String}
    (blank : CommandLine.expression? arguments = none) (sources : Nat → σ)
    {input other : List Char}
    (same : List.Forall₂ (fun line other => Text.trim line = Text.trim other)
      (CommandLine.lines input) (CommandLine.lines other)) :
    CommandLine.run sources arguments (String.ofList input) =
      CommandLine.run sources arguments (String.ofList other) := by
  rw [CommandLine.run_of_blank blank, CommandLine.run_of_blank blank,
    String.toList_ofList, String.toList_ofList, CommandLine.answers_eq same]

theorem CommandLine.run_eq_of_returned {arguments : List String}
    (blank : CommandLine.expression? arguments = none) (sources : Nat → σ)
    {input other : List Char} (returned : Text.Returned input other) :
    CommandLine.run sources arguments (String.ofList input) =
      CommandLine.run sources arguments (String.ofList other) := by
  apply CommandLine.run_eq_of_lines blank
  apply returned.lines.imp
  rintro line _ (rfl | rfl)
  · rfl
  · exact (Text.trim_append_space (by decide) line).symm

/-- It makes no difference whether the last line is closed, if it is not empty. -/
theorem CommandLine.run_eq_of_closed {arguments : List String}
    (blank : CommandLine.expression? arguments = none) (sources : Nat → σ) {last : Char}
    (inside : last ≠ '\n') (text : List Char) {ending : List Char}
    (member : ending ∈ [['\n'], ['\r', '\n']]) :
    CommandLine.run sources arguments (String.ofList (text ++ [last])) =
      CommandLine.run sources arguments (String.ofList (text ++ [last] ++ ending)) := by
  have closed : CommandLine.run sources arguments (String.ofList (text ++ [last])) =
      CommandLine.run sources arguments (String.ofList (text ++ [last, '\n'])) := by
    rw [CommandLine.run_of_blank blank, CommandLine.run_of_blank blank,
      String.toList_ofList, String.toList_ofList, CommandLine.lines_close inside]
  rw [closed, List.append_assoc]
  apply CommandLine.run_eq_of_returned blank
  apply Text.Returned.append
  rcases List.mem_pair.mp member with rfl | rfl
  · exact .refl _
  · exact .keep last (.insert .nil)

/-- A line that has no report leaves the output as an empty line does, and puts its
complaint between those of the lines before and behind it. -/
theorem CommandLine.run_of_failing {arguments : List String}
    (blank : CommandLine.expression? arguments = none) (render : Report → String)
    (sources : Nat → σ) {earlier : List (List Char)} {failing : List Char} {fault : Fault}
    (closed : ∀ line ∈ earlier, '\n' ∉ line) (inside : '\n' ∉ failing)
    (failed : CommandLine.answer? failing (sources earlier.length) = some (.error fault))
    (later : List Char) :
    let transcript := fun rest =>
      CommandLine.run sources arguments (String.ofList (Text.ofLines earlier ++ rest))
    (transcript (failing ++ '\n' :: later)).output render =
        (transcript ('\n' :: later)).output render ∧
      ∃ complaints,
        (transcript ('\n' :: later)).errors = (transcript []).errors ++ complaints ∧
        (transcript (failing ++ '\n' :: later)).errors =
          (transcript []).errors ++ ("Error: " ++ fault.message ++ "\n") ++ complaints := by
  intro transcript
  let before := CommandLine.answers sources earlier
  let behind := CommandLine.answers (fun index => sources (index + 1 + earlier.length))
    (CommandLine.lines later)
  have answered : ∀ line, '\n' ∉ line →
      CommandLine.answers sources (CommandLine.lines
          (String.ofList (Text.ofLines earlier ++ (line ++ '\n' :: later))).toList) =
        before ++ CommandLine.answer? line (sources earlier.length) :: behind := by
    intro line inside
    rw [String.toList_ofList, CommandLine.lines_ofLines closed,
      CommandLine.lines_closed inside, CommandLine.answers_append,
      CommandLine.answers_cons, Nat.zero_add]
  have withFailing := answered failing inside
  have withEmpty := answered [] List.not_mem_nil
  have alone : CommandLine.answers sources (CommandLine.lines
      (String.ofList (Text.ofLines earlier ++ [])).toList) = before := by
    rw [String.toList_ofList, CommandLine.lines_ofLines closed, CommandLine.lines,
      List.append_nil]
  rw [failed] at withFailing
  rw [CommandLine.answer?_of_blank rfl, List.nil_append] at withEmpty
  constructor
  · simp only [transcript, CommandLine.output_of_blank blank, withFailing, withEmpty,
      List.map_append, List.map_cons, Answer.shown]
  · refine ⟨String.join (behind.map Answer.complaint), ?_, ?_⟩
    · simp only [transcript, CommandLine.errors_of_blank blank, withEmpty, alone,
        List.map_append, List.map_cons, Answer.complaint, String.join_append,
        String.join_cons, String.empty_append]
    · simp only [transcript, CommandLine.errors_of_blank blank, withFailing, alone,
        List.map_append, List.map_cons, Answer.complaint, String.join_append,
        String.join_cons, String.append_assoc]

end Conversing

/-- Without an expression among the arguments, which are all white space then, the program
ends well on every input.  Whatever lines the input is made of, the output holds a prompt,
then for each line its report, if it has one, and another prompt, and a line end; the
error stream holds the complaints of the lines that fail, in their order.  What a line is
answered depends on the line without the white space around it and on the draws of its
dice: a line that fails leaves the output and all other complaints as an empty line does.
Carriage returns in front of line feeds, or a missing end of a last line that is not
empty, change nothing. -/
theorem CommandLine.lines_answered_apart {σ : Type} [Roller σ] {arguments : List String}
    (blank : ∀ argument ∈ arguments, ∀ character ∈ argument.toList,
      Text.isSpace character = true)
    (render : Report → String) (sources : Nat → σ) :
    (∀ input : String, (∃ lines, Text.Lined input.toList lines) ∧
      ∀ lines, Text.Lined input.toList lines →
      let transcript := CommandLine.run sources arguments input
      transcript.exitCode = 0 ∧
      transcript.output render =
        "> " ++ String.join (lines.mapIdx fun index line =>
          Answer.shown render (CommandLine.answer? line (sources index)) ++ "> ") ++ "\n" ∧
      transcript.errors =
        String.join (lines.mapIdx fun index line =>
          Answer.complaint (CommandLine.answer? line (sources index)))) ∧
    (∀ (line : List Char) (source : σ),
      let answer := CommandLine.answer? line source
      let attempt := Report.ofText (String.ofList (Text.trim line)) source
      (Text.trim line = [] → Answer.shown render answer = "" ∧ Answer.complaint answer = "") ∧
      (Text.trim line ≠ [] →
        (∀ report, attempt = .ok report →
          Answer.shown render answer = render report ∧ Answer.complaint answer = "") ∧
        ∀ fault, attempt = .error fault →
          Answer.shown render answer = "" ∧
            Answer.complaint answer = "Error: " ++ fault.message ++ "\n")) ∧
    (∀ (τ : Type) [Roller τ] (line other : List Char) (source : σ) (otherSource : τ),
      Text.trim line = Text.trim other →
      (∀ expression, Expression.read (String.ofList (Text.trim line)) = .ok expression →
        (Roller.answers expression.plan source).1 =
          (Roller.answers expression.plan otherSource).1) →
      CommandLine.answer? line source = CommandLine.answer? other otherSource) ∧
    (∀ (earlier : List (List Char)) (failing later : List Char) (fault : Fault),
      (∀ line ∈ earlier, '\n' ∉ line) → '\n' ∉ failing → Text.trim failing ≠ [] →
      Report.ofText (String.ofList (Text.trim failing)) (sources earlier.length) =
        .error fault →
      let transcript := fun rest =>
        CommandLine.run sources arguments (String.ofList (Text.ofLines earlier ++ rest))
      (transcript (failing ++ '\n' :: later)).output render =
          (transcript ('\n' :: later)).output render ∧
        ∃ complaints,
          (transcript ('\n' :: later)).errors = (transcript []).errors ++ complaints ∧
          (transcript (failing ++ '\n' :: later)).errors =
            (transcript []).errors ++ ("Error: " ++ fault.message ++ "\n") ++ complaints) ∧
    (∀ input other : List Char, Text.Returned input other →
      CommandLine.run sources arguments (String.ofList other) =
        CommandLine.run sources arguments (String.ofList input)) ∧
    (∀ (text : List Char) (last : Char), last ≠ '\n' → ∀ ending ∈ [['\n'], ['\r', '\n']],
      CommandLine.run sources arguments (String.ofList (text ++ [last])) =
        CommandLine.run sources arguments (String.ofList (text ++ [last] ++ ending))) := by
  have noExpression := CommandLine.expression?_eq_none_iff.mpr blank
  refine ⟨?_, ?_, ?_, ?_, ?_, ?_⟩
  · intro input
    refine ⟨⟨_, Text.lined_lines input.toList⟩, ?_⟩
    intro lines lined
    rw [Text.lined_iff] at lined
    subst lined
    refine ⟨?_, ?_, ?_⟩
    · rw [CommandLine.run_of_blank noExpression]
    · rw [CommandLine.output_of_blank noExpression, CommandLine.map_answers]
      rfl
    · rw [CommandLine.errors_of_blank noExpression, CommandLine.map_answers]
  · intro line source answer attempt
    refine ⟨fun nothing => ?_, fun inhabited => ⟨?_, ?_⟩⟩
    · simp only [answer, CommandLine.answer?_of_blank nothing]
      exact ⟨rfl, rfl⟩
    · intro report success
      have answered : answer = some attempt := CommandLine.answer?_of_text inhabited source
      rw [answered, success]
      exact ⟨rfl, rfl⟩
    · intro fault failure
      have answered : answer = some attempt := CommandLine.answer?_of_text inhabited source
      rw [answered, failure]
      exact ⟨rfl, rfl⟩
  · intro τ _ line other source otherSource sameText sameDraws
    exact CommandLine.answer?_eq sameText sameDraws
  · intro earlier failing later fault closed inside inhabited failed
    apply CommandLine.run_of_failing noExpression render sources closed inside
    rw [CommandLine.answer?_of_text inhabited, failed]
  · intro input other returned
    exact (CommandLine.run_eq_of_returned noExpression sources returned).symm
  · intro text last inside ending member
    exact CommandLine.run_eq_of_closed noExpression sources inside text member

/-- A die is answered the same in front of a line that divides by zero, with and without
carriage returns and line ends, and whichever roller shows its two. -/
theorem die_answered_beside_division :
    let arguments := [" ", ""]
    let sources : Nat → Prepared := fun _ => ⟨[2]⟩
    let transcript := fun input => CommandLine.run sources arguments input
    (∀ argument ∈ arguments, ∀ character ∈ argument.toList,
      Text.isSpace character = true) ∧
    (transcript "1d2\n9/(1d2-2)\n6\n").exitCode = 0 ∧
    Report.ofText "9/(1d2-2)" (sources 1) = .error (.evaluation .divisionByZero) ∧
    (transcript "1d2\n9/(1d2-2)\n6\n").output Report.text =
      (transcript "1d2\n\n6\n").output Report.text ∧
    (∃ complaints,
      (transcript "1d2\n9/(1d2-2)\n6\n").errors =
        (transcript "1d2\n").errors ++ "Error: cannot divide by zero\n" ++ complaints) ∧
    transcript "1d2\r\n\n6" = transcript "1d2\n\n6" ∧
    transcript "1d2\n\n6" = transcript "1d2\n\n6\r\n" ∧
    CommandLine.answer? "1d2".toList (sources 0) =
      CommandLine.answer? "\t1d2 ".toList (Recorded.mk (sources 0) []) := by
  intro arguments sources transcript
  have blank : ∀ argument ∈ arguments, ∀ character ∈ argument.toList,
      Text.isSpace character = true := by
    have judged : arguments.all (fun argument => argument.toList.all Text.isSpace) = true := by
      decide
    simpa only [List.all_eq_true] using judged
  obtain ⟨complete, _, depends, contained, returned, closed⟩ :=
    CommandLine.lines_answered_apart blank Report.text sources
  let die := Atom.dice (.sum 1 (.numbered 2)) "1d2"
  have dieRead : Expression.read "1d2" = .ok (.term (.atom die)) := by
    decide +kernel
  have failed : Report.ofText "9/(1d2-2)" (sources 1) =
      .error (.evaluation .divisionByZero) := by
    let divisor := Expression.combine (.term (.atom die)) .sub (.atom (.constant 2))
    let quotient := Expression.term
      (.combine (.atom (.constant 9)) .div (.group divisor))
    have read : Expression.read "9/(1d2-2)" = .ok quotient := by
      decide +kernel
    have rolled : (quotient.roll (some 1000) (sources 1)).1 = .error .divisionByZero := by
      decide +kernel
    rw [Report.ofText_of_read read, rolled]
    rfl
  have alone : String.ofList (Text.ofLines ["1d2".toList] ++ []) = "1d2\n" := by
    decide
  have withEmpty : String.ofList (Text.ofLines ["1d2".toList] ++ ('\n' :: "6\n".toList)) =
      "1d2\n\n6\n" := by
    decide
  have withFailing : String.ofList (Text.ofLines ["1d2".toList] ++
      ("9/(1d2-2)".toList ++ '\n' :: "6\n".toList)) = "1d2\n9/(1d2-2)\n6\n" := by
    decide
  have message : "Error: " ++ (Fault.evaluation .divisionByZero).message ++ "\n" =
      "Error: cannot divide by zero\n" := by
    decide
  have trimmed : String.ofList (Text.trim "9/(1d2-2)".toList) = "9/(1d2-2)" := by
    decide
  have beside := contained ["1d2".toList] "9/(1d2-2)".toList "6\n".toList
    (.evaluation .divisionByZero) (by decide) (by decide) (by decide)
    (by rw [trimmed]; exact failed)
  simp only [alone, withEmpty, withFailing, message] at beside
  obtain ⟨sameOutput, complaints, _, errors⟩ := beside
  obtain ⟨⟨_, lined⟩, endsWell⟩ := complete "1d2\n9/(1d2-2)\n6\n"
  obtain ⟨exitCode, _⟩ := endsWell _ lined
  refine ⟨blank, exitCode, failed, sameOutput, ⟨complaints, errors⟩, ?_, ?_, ?_⟩
  · have same := returned "1d2\n\n6".toList "1d2\r\n\n6".toList
      (.keep _ (.keep _ (.keep _ (.insert (.refl _)))))
    rwa [String.ofList_toList, String.ofList_toList] at same
  · have same := closed "1d2\n\n".toList '6' (by decide) ['\r', '\n'] (by decide)
    have dropped : String.ofList ("1d2\n\n".toList ++ ['6']) = "1d2\n\n6" := by
      decide
    have kept : String.ofList ("1d2\n\n".toList ++ ['6'] ++ ['\r', '\n']) =
        "1d2\n\n6\r\n" := by
      decide
    rwa [dropped, kept] at same
  · apply depends
    · decide
    · intro expression read
      have trimmed : String.ofList (Text.trim "1d2".toList) = "1d2" := by
        decide
      rw [trimmed, dieRead] at read
      cases read
      decide

end DiceOdds
