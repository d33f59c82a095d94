import Calculator.Evaluation
import Calculator.Session.Builtins
import Calculator.Session.Command
/-!
# Sessions

A session reads a line, answers it and goes on with the table the line
leaves. Before each line it prompts, also where it then finds that there is
none. `respond` is what one line does, `Session.run` what a whole input
does: it ends at the end of the input, at a line that leaves, or at one
that is not text, and only the last of these is a failure. `turn` does the
same with one line at a time, as it is read.
-/

namespace Calculator

/-- What one line does. -/
inductive Response where
  /-- It prints lines, and the session goes on with a table. -/
  | answer (lines : List String) (table : SymbolTable)
  /-- It ends the session. -/
  | leave

/-- How a value of a name is shown. -/
def showBinding (name : String) (value : Float) : String := name ++ " = " ++ Number.text value

/-- How an error is shown. -/
def showError (error : Error) : String := "error: " ++ error.message

/-- The variables of a table, in the order of their spellings. -/
def SymbolTable.sortedVariables (table : SymbolTable) : List (String × Float) :=
  table.variableList.mergeSort fun a b => a.1 ≤ b.1

/-- The value of an expression becomes the value of a variable. -/
def SymbolTable.assign (table : SymbolTable) (name expression : String) :
    Except Error (Float × SymbolTable) :=
  (table.evaluate expression).bind fun value =>
    ((table.bind name value).mapError .symbol).map fun table => (value, table)

/-- **What a command does** with a table; the missing one is invalid. -/
def respond (table : SymbolTable) : Option Command → Response
  | none => .answer ["invalid command"] table
  | some .nothing => .answer [] table
  | some .leave => .leave
  | some .listVariables =>
    .answer (table.sortedVariables.map fun (name, value) => showBinding name value) table
  | some (.assign name expression) =>
    match table.assign name expression with
    | .ok (value, table) => .answer [showBinding name value] table
    | .error error => .answer [showError error] table
  | some (.evaluate source) =>
    match table.evaluate source with
    | .ok value => .answer [Number.text value] table
    | .error error => .answer [showError error] table

/-! ## Whole sessions -/

/-- What a session printed, one piece to each line it read, and whether it
ended as it should. -/
structure Transcript where
  pieces : List String
  failed : Bool
deriving DecidableEq, Repr

namespace Transcript

/-- All that was printed. -/
def output (transcript : Transcript) : String := String.join transcript.pieces

/-- The exit code, which tells a failure. -/
def exitCode (transcript : Transcript) : Nat := if transcript.failed then 1 else 0

/-- A piece comes before the rest. -/
def prepend (piece : String) (transcript : Transcript) : Transcript :=
  { transcript with pieces := piece :: transcript.pieces }

end Transcript

namespace Session

/-- What a session prints before it reads a line. -/
def prompt : String := "> "

/-- The prompt and the answer to it, each line of which ends. -/
def piece (lines : List String) : String := prompt ++ String.join (lines.map (· ++ "\n"))

/-- What a line of text does. -/
def step (table : SymbolTable) (line : String) : Response := respond table (Command.ofLine? line)

/-- **A session over lines**, each of which is a text or fails to be one. -/
def run (table : SymbolTable) : List (Option String) → Transcript
  | [] => ⟨[prompt], false⟩
  | none :: _ => ⟨[prompt], true⟩
  | some line :: rest =>
    match step table line with
    | .leave => ⟨[prompt], false⟩
    | .answer lines table => (run table rest).prepend (piece lines)

/-! ## Lines of bytes -/

/-- The byte that ends a line. -/
def lineFeed : UInt8 := 10

/-- The lines of an input. Each but the last ends with a line feed, and the
last is missing if it would hold nothing. -/
def splitLines : List UInt8 → List (List UInt8)
  | [] => []
  | byte :: rest =>
    if byte = lineFeed then [byte] :: splitLines rest
    else
      match splitLines rest with
      | [] => [[byte]]
      | line :: lines => (byte :: line) :: lines

/-- The text of a line, if its bytes are text. -/
def decode (line : List UInt8) : Option String := String.fromUTF8? ⟨line.toArray⟩

/-- **A session over an input**, from the table of the built-in functions. -/
def ofBytes (input : List UInt8) : Transcript := run Builtins.table ((splitLines input).map decode)

/-! ## One line after the other -/

/-- What a session comes to with a line. -/
inductive Turn where
  /-- It ends, and fails or not. -/
  | stop (failed : Bool)
  /-- It prints lines and goes on with a table. -/
  | goOn (lines : List String) (table : SymbolTable)

/-- **What a session does with the bytes it has read**, which are none at the end of the
input only. Nothing but the table is left of the lines before. -/
def turn (table : SymbolTable) (line : List UInt8) : Turn :=
  if line.isEmpty then .stop false
  else
    match decode line with
    | none => .stop true
    | some text =>
      match step table text with
      | .leave => .stop false
      | .answer lines table => .goOn lines table

end Session

end Calculator
