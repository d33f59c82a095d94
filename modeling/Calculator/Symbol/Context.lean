import Calculator.Symbol.Operation
/-!
# Contexts

A context says what each name stands for: a variable with its value, a
function, or nothing. Reading and evaluating an expression ask no more of
their surroundings, so they work with any context.
-/

namespace Calculator

/-- What kind of thing a name stands for. -/
inductive SymbolKind where
  | var
  | fn
deriving DecidableEq, Repr

/-- The word for a kind. -/
def SymbolKind.text : SymbolKind → String
  | var => "variable"
  | fn => "function"

/-- What a name stands for. -/
inductive Meaning where
  | var (value : Float)
  | fn (operation : Operation)

/-- The kind of what a name stands for. -/
def Meaning.kind : Meaning → SymbolKind
  | var _ => .var
  | fn _ => .fn

/-- **What each name stands for**, if it stands for anything. -/
structure Context where
  lookup : String → Option Meaning

end Calculator
