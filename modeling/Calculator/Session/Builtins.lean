import Calculator.Symbol.Table
/-!
# Built-in functions

The functions a session starts with.
-/

namespace Calculator

namespace Builtins

/-- The function of one float. -/
def unary (f : Float → Float) : Operation := .ofCurried 1 f

/-- The function of two floats. -/
def binary (f : Float → Float → Float) : Operation := .ofCurried 2 f

/-- The operand that is a number, if only one is, and else the one the
choice prefers. -/
def preferNumber (choose : Float → Float → Float) (x y : Float) : Float :=
  if x.isNaN then y else if y.isNaN then x else choose x y

/-- The greater of two floats. -/
def maximum : Float → Float → Float := preferNumber fun x y => if x < y then y else x

/-- The less of two floats. -/
def minimum : Float → Float → Float := preferNumber fun x y => if y < x then y else x

/-- **The built-in functions** by name. -/
def all : List (String × Operation) :=
  [("sqrt", unary Float.sqrt), ("abs", unary Float.abs), ("ln", unary Float.log),
    ("sin", unary Float.sin), ("cos", unary Float.cos), ("tan", unary Float.tan),
    ("max", binary maximum), ("min", binary minimum)]

/-- The table that holds them and nothing else. -/
def table : SymbolTable := (SymbolTable.empty.registerAll all).2

end Builtins

end Calculator
