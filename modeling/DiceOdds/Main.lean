import DiceOdds.CommandLine
import DiceOdds.Random.Source

/-!
# The program

Reads arguments and lines, draws a seed for every expression from the system,
and prints what the command line writes.
-/

namespace DiceOdds

def freshSource : IO Source := do
  let bytes ← IO.getRandomBytes 8
  return .ofSeed (bytes.foldl (fun seed byte => seed * 256 + byte.toUInt64) 0)

/-- Prints what is written, in its order. -/
def Writing.print {α : Type} (writing : Writing α) : IO α := do
  let output ← IO.getStdout
  let errors ← IO.getStderr
  let (value, written) := writing.run []
  for piece in written do
    output.putStr (piece.output Report.text)
    errors.putStr piece.errors
  output.flush
  return value

/-- Responds to line after line until the input ends. -/
partial def converse (input : IO.FS.Stream) : IO Unit := do
  let line ← input.getLine
  unless line.isEmpty do
    (CommandLine.respond line.toList (← freshSource)).print
    converse input

end DiceOdds

open DiceOdds in
def main (arguments : List String) : IO UInt32 := do
  match CommandLine.expression? arguments with
  | some _ =>
      let source ← freshSource
      let exitCode ← (CommandLine.program (fun _ => source) arguments "").print
      return UInt32.ofNat exitCode
  | none =>
      (Piece.text CommandLine.prompt).write.print
      converse (← IO.getStdin)
      (Piece.text "\n").write.print
      return 0
