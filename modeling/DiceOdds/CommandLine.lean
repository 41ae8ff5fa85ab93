import DiceOdds.Fault.Inspection
import DiceOdds.Report
import DiceOdds.Text.Blank

/-!
# The command line

An expression among the arguments is reported on once.  Without one, every line
of the input is an expression and is answered before the next prompt; a line
that has no report is answered on the error stream, and the conversation goes
on.
-/

namespace DiceOdds

/-- The expression that the arguments spell out, if they are not all blank. -/
def CommandLine.expression? (arguments : List String) : Option String :=
  let joined := " ".intercalate arguments
  if (Text.trim joined.toList).isEmpty then none else some joined

/-- The lines of an input; a line end closes a line, and the last line may lack
one. -/
def CommandLine.lines : List Char → List (List Char)
  | [] => []
  | '\n' :: rest => [] :: CommandLine.lines rest
  | character :: rest =>
      match CommandLine.lines rest with
      | [] => [[character]]
      | line :: more => (character :: line) :: more

/-- What the program writes, piece by piece. -/
inductive Piece where
  | text (content : String)
  | report (content : Report)
  /-- A text on the error stream. -/
  | complaint (content : String)

/-- What a piece puts on the output, where a report is shown by `render`. -/
def Piece.output (render : Report → String) : Piece → String
  | .text content => content
  | .report content => render content
  | .complaint _ => ""

def Piece.errors : Piece → String
  | .complaint content => content
  | _ => ""

/-- A computation that writes behind the pieces written before it. -/
abbrev Writing := StateM (List Piece)

def Piece.write (piece : Piece) : Writing Unit :=
  modify fun written => written ++ [piece]

variable {σ : Type} [Roller σ]

/-- Writes the report on a text.  What has been written stays if there is none. -/
def CommandLine.report (text : String) (source : σ) : ExceptT Fault Writing Unit := do
  let report ← Report.ofText text source
  (Piece.report report).write

def CommandLine.prompt : String := "> "

/-- Answers a line of the input and prompts for the next one; blanks around the
expression are dropped. -/
def CommandLine.respond (line : List Char) (source : σ) : Writing Unit := do
  let trimmed := Text.trim line
  unless trimmed.isEmpty do
    match ← (CommandLine.report (String.ofList trimmed) source).run with
    | .ok () => pure ()
    | .error fault => (Piece.complaint ("Error: " ++ fault.message ++ "\n")).write
  (Piece.text CommandLine.prompt).write

/-- Responds to one line after another; `asked` of them came before. -/
def CommandLine.converse (sources : Nat → σ) : Nat → List (List Char) → Writing Unit
  | _, [] => pure ()
  | asked, line :: lines => do
      CommandLine.respond line (sources asked)
      CommandLine.converse sources (asked + 1) lines

/-- The program; `sources` gives the source of draws for each line.  The exit code
is one exactly when the expression of the arguments fails. -/
def CommandLine.program (sources : Nat → σ) (arguments : List String)
    (input : String) : Writing Nat :=
  match CommandLine.expression? arguments with
  | some expression => do
      match ← (CommandLine.report expression (sources 0)).run with
      | .ok () => return 0
      | .error fault =>
          (Piece.complaint ("Error: " ++ fault.inspect ++ "\n")).write
          return 1
  | none => do
      (Piece.text CommandLine.prompt).write
      CommandLine.converse sources 0 (CommandLine.lines input.toList)
      (Piece.text "\n").write
      return 0

/-- What the program leaves behind. -/
structure Transcript where
  exitCode : Nat
  written : List Piece

def CommandLine.run (sources : Nat → σ) (arguments : List String)
    (input : String) : Transcript :=
  let (exitCode, written) := (CommandLine.program sources arguments input).run []
  { exitCode, written }

def Transcript.output (render : Report → String) (transcript : Transcript) : String :=
  String.join (transcript.written.map (Piece.output render))

def Transcript.errors (transcript : Transcript) : String :=
  String.join (transcript.written.map Piece.errors)

/-! ## Answers -/

abbrev Answer := Except Fault Report

/-- How a line is answered: not at all if it is blank. -/
def CommandLine.answer? (line : List Char) (source : σ) : Option Answer :=
  let trimmed := Text.trim line
  if trimmed.isEmpty then
    none
  else
    some (Report.ofText (String.ofList trimmed) source)

def Answer.shown (render : Report → String) : Option Answer → String
  | some (.ok report) => render report
  | _ => ""

def Answer.complaint : Option Answer → String
  | some (.error fault) => "Error: " ++ fault.message ++ "\n"
  | _ => ""

end DiceOdds
