/-!
# Expressions

An expression is a number, a variable, a call, a sign, a factorial or one
of five operations on two operands. Parentheses leave no trace in it, and
names are spelled as they were written.
-/

namespace Calculator

/-- The operations on two operands. -/
inductive BinaryOp where
  | add
  | sub
  | mul
  | div
  | pow
deriving DecidableEq, Repr

/-- Arithmetic on floats. -/
def BinaryOp.apply : BinaryOp → Float → Float → Float
  | add, x, y => x + y
  | sub, x, y => x - y
  | mul, x, y => x * y
  | div, x, y => x / y
  | pow, x, y => x.pow y

/-- An expression. -/
inductive Expr where
  | num (value : Float)
  | var (name : String)
  | call (name : String) (arguments : List Expr)
  | neg (operand : Expr)
  | fact (operand : Expr)
  | binary (op : BinaryOp) (left right : Expr)

end Calculator
