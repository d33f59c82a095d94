import Calculator.Symbol.Operation
import Calculator.Token.Lexeme
/-!
# Syntax errors

What keeps a source from being an expression. Each error but one is
located at the token it is about; a call with the wrong number of
arguments is located at the whole call.
-/

namespace Calculator

/-- A source is no expression. -/
inductive SyntaxError where
  /-- It holds something that is no token. -/
  | lexical (error : LexError)
  /-- It ends where an expression has to begin. -/
  | unexpectedEnd
  /-- A token stands where only tokens of other kinds may. -/
  | unexpectedToken (expected : List Kind) (found : Kind)
  /-- No operand follows an operator. -/
  | missingOperand (operator found : Kind)
  /-- The identifier stands for nothing. -/
  | undefinedIdentifier (name : String)
  /-- A call has too few or too many arguments. -/
  | arityMismatch (mismatch : ArityMismatch)
  /-- Something follows a whole expression. -/
  | trailingInput (text : String)
deriving DecidableEq, Repr

/-- The text of a syntax error. -/
def SyntaxError.message : SyntaxError → String
  | lexical error => error.message
  | unexpectedEnd => "unexpected end of input"
  | unexpectedToken expected found =>
    "expected " ++ " or ".intercalate (expected.map Kind.text) ++ ", found " ++ found.text
  | missingOperand operator found =>
    "expected an operand after " ++ operator.text ++ ", found " ++ found.text
  | undefinedIdentifier name => "undefined identifier `" ++ name ++ "`"
  | arityMismatch mismatch => mismatch.message
  | trailingInput text => "unexpected `" ++ text ++ "` after expression"

end Calculator
