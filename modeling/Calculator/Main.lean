import Calculator.Session
/-!
# The command line

The interactive program: it prompts, reads a line from the standard input and
does as `Session.turn` says, again and again. What it prints that way is
what `Session.run` prints over all the lines of the input
(`Session.run_eq_turn`). All that is decided here is how bytes are read and
written.

A line is read into an array of its own. Whether an array is used again for
the next line makes no difference as long as it is emptied first, so a line
knows the lines before it by the table alone, and no array has a place in
`Session.turn`.
-/

namespace Calculator

/-- Reads bytes up to the end of a line or of the input. -/
partial def readLine (input : IO.FS.Stream) (line : ByteArray) : IO ByteArray := do
  let next ← input.read 1
  if next.isEmpty then return line
  let line := line ++ next
  if next.toList = [Session.lineFeed] then return line else readLine input line

/-- Answers lines until the session ends, and gives its exit code. -/
partial def interact (input output : IO.FS.Stream) (table : SymbolTable) : IO UInt32 := do
  output.putStr Session.prompt
  output.flush
  match Session.turn table (← readLine input .empty).toList with
  | .stop failed => return if failed then 1 else 0
  | .goOn lines table =>
    lines.forM fun line => output.putStrLn line
    interact input output table

end Calculator

/-- Runs a session on the standard input and output. -/
def main : IO UInt32 := do
  Calculator.interact (← IO.getStdin) (← IO.getStdout) Calculator.Builtins.table
