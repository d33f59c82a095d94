/-!
# Operations

An operation takes a fixed number of floats to a float. It is made from a
curried function, whose type says how many it takes, or from a function of
all its arguments as a list. `call` gives no result for any other number
of arguments.
-/

namespace Calculator

/-- The functions of `n` floats, one argument at a time. -/
def Curried : Nat → Type
  | 0 => Float
  | n + 1 => Float → Curried n

namespace Curried

/-- The value that stands for the lack of one. -/
def noValue : Float := 0.0 / 0.0

/-- The function at its arguments. It has no value at too few or too many. -/
def apply : (n : Nat) → Curried n → List Float → Float
  | 0, value, [] => value
  | n + 1, f, x :: rest => apply n (f x) rest
  | 0, _, _ :: _ => noValue
  | _ + 1, _, [] => noValue

end Curried

/-- A function that expressions can call. -/
structure Operation where
  arity : Nat
  body : List Float → Float

namespace Operation

/-- The operation a curried function is, with the arity its type has. -/
def ofCurried (n : Nat) (f : Curried n) : Operation := ⟨n, Curried.apply n f⟩

/-- The operation a function of a list is, said to take `n` arguments. -/
def ofList (n : Nat) (f : List Float → Float) : Operation := ⟨n, f⟩

/-- **The result at the arguments**, if they are as many as the arity says. -/
def call (operation : Operation) (arguments : List Float) : Option Float :=
  if arguments.length = operation.arity then some (operation.body arguments) else none

/-- How an operation is described: by its arity alone. -/
def description (operation : Operation) : String :=
  "Function \x7b arity: " ++ toString operation.arity ++ ", .. \x7d"

end Operation

/-- A call by `name` of an operation that takes another number of arguments. -/
structure ArityMismatch where
  name : String
  expected : Nat
  found : Nat
deriving DecidableEq, Repr

/-- The text of a mismatch. -/
def ArityMismatch.message (mismatch : ArityMismatch) : String :=
  "function `" ++ mismatch.name ++ "` takes " ++ toString mismatch.expected ++
    " argument(s), " ++ toString mismatch.found ++ " given"

end Calculator
