import Calculator.Expr
import Calculator.Number.Display
import Calculator.Symbol.Context
/-!
# Evaluation

`Expr.eval` gives an expression its value in a context, or the first thing
that keeps it from having one: operands are evaluated from left to right,
and a call looks its function up before its arguments and counts them
after. Names are looked up anew, so the context need not be the one the
expression was read in.
-/

namespace Calculator

/-- An expression has no value. -/
inductive EvalError where
  | undefinedVariable (name : String)
  | undefinedFunction (name : String)
  | arityMismatch (mismatch : ArityMismatch)
  | negativeFactorial (value : Float)
  | nonIntegerFactorial (value : Float)
deriving DecidableEq

/-- The text of an evaluation error. -/
def EvalError.message : EvalError → String
  | undefinedVariable name => "undefined variable `" ++ name ++ "`"
  | undefinedFunction name => "undefined function `" ++ name ++ "`"
  | arityMismatch mismatch => mismatch.message
  | negativeFactorial value => "factorial of negative number " ++ Number.text value
  | nonIntegerFactorial value => "factorial of non-integer " ++ Number.text value

/-! ## Factorials -/

namespace Factorial

/-- The least number whose factorial is above every finite float. -/
def overflow : Nat := 171

/-- The factors of a factorial that are multiplied. Past `overflow` the
product is infinite and no factor changes it. -/
def factors (n : Nat) : List Nat := List.range' 2 (min n overflow - 1)

/-- The product of the factors from the least up, rounded at each step. -/
def product (n : Nat) : Float := (factors n).foldl (fun p k => p * Float.ofNat k) 1.0

end Factorial

/-- **The factorial of a float**, which has to be a natural number. -/
def factorial (x : Float) : Except EvalError Float :=
  match (Binary64.ofFloat x).integer? with
  | none => .error (.nonIntegerFactorial x)
  | some n => if n < 0 then .error (.negativeFactorial x) else .ok (Factorial.product n.toNat)

/-! ## Expressions -/

/-- The value of a name as a variable. -/
def Context.variable? (context : Context) (name : String) : Except EvalError Float :=
  match context.lookup name with
  | some (.var value) => .ok value
  | _ => .error (.undefinedVariable name)

/-- The operation of a name as a function. -/
def Context.function? (context : Context) (name : String) : Except EvalError Operation :=
  match context.lookup name with
  | some (.fn operation) => .ok operation
  | _ => .error (.undefinedFunction name)

/-- The result of a call once its arguments have values. -/
def Operation.callAs (operation : Operation) (name : String) (arguments : List Float) :
    Except EvalError Float :=
  match operation.call arguments with
  | some result => .ok result
  | none => .error (.arityMismatch ⟨name, operation.arity, arguments.length⟩)

mutual

/-- **The value of an expression in a context.** -/
def Expr.eval (context : Context) : Expr → Except EvalError Float
  | .num value => .ok value
  | .var name => context.variable? name
  | .call name arguments =>
    (context.function? name).bind fun operation =>
      (Expr.evalAll context arguments).bind fun values => operation.callAs name values
  | .neg operand => (operand.eval context).map fun x => -x
  | .fact operand => (operand.eval context).bind factorial
  | .binary op left right =>
    (left.eval context).bind fun x => (right.eval context).map fun y => op.apply x y

/-- The values of expressions from left to right, up to the first error. -/
def Expr.evalAll (context : Context) : List Expr → Except EvalError (List Float)
  | [] => .ok []
  | first :: rest =>
    (first.eval context).bind fun x => (Expr.evalAll context rest).map fun xs => x :: xs

end

end Calculator
