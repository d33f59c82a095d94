import Calculator.Expr
/-!
# What an operand still has to join

While an expression is read, what was read of it before the latest operand
waits in a `Pending`, one field for each level of the grammar:

    expression := term (('+' | '-') term)*
    term       := factor (('*' | '/') factor)*
    factor     := '-'? product
    product    := power product?
    power      := postfix ('^' power)?

When a level is complete, the operand joins what waits on that level and
all tighter ones: `power`, `product`, `factor`, `term` and `expression`
are the trees that result. Sums and quotients group to the left, powers
and juxtaposed operands to the right, and a sign negates a whole product.
-/

namespace Calculator

/-- The parts of an unfinished expression that wait for an operand. -/
structure Pending where
  /-- A left operand of the level of sums, and its operator. -/
  sum : Option (Expr × BinaryOp)
  /-- A left operand of the level of `*` and `/`, and its operator. -/
  quotient : Option (Expr × BinaryOp)
  /-- A sign. -/
  negated : Bool
  /-- Operands juxtaposed to the next one, the last of them first. -/
  factors : List Expr
  /-- Operands to be raised to the next one, the last of them first. -/
  bases : List Expr

namespace Pending

/-- Nothing waits at the start of an expression. -/
def start : Pending := ⟨none, none, false, [], []⟩

/-- Joins a left operand, if one waits. -/
def join : Option (Expr × BinaryOp) → Expr → Expr
  | none, right => right
  | some (left, op), right => .binary op left right

/-- The power that ends with this operand. -/
def power (pending : Pending) (operand : Expr) : Expr :=
  pending.bases.foldl (fun exponent base => .binary .pow base exponent) operand

/-- The product of juxtaposed operands that ends with this one. -/
def product (pending : Pending) (operand : Expr) : Expr :=
  pending.factors.foldl (fun right left => .binary .mul left right) (pending.power operand)

/-- The factor that ends with this operand. -/
def factor (pending : Pending) (operand : Expr) : Expr :=
  if pending.negated then .neg (pending.product operand) else pending.product operand

/-- The term that ends with this operand. -/
def term (pending : Pending) (operand : Expr) : Expr :=
  join pending.quotient (pending.factor operand)

/-- **The expression that ends with this operand.** -/
def expression (pending : Pending) (operand : Expr) : Expr :=
  join pending.sum (pending.term operand)

/-- The operand is to be raised to the next. -/
def raise (pending : Pending) (operand : Expr) : Pending :=
  { pending with bases := operand :: pending.bases }

/-- The power that ends with the operand is to be multiplied with the next. -/
def juxtapose (pending : Pending) (operand : Expr) : Pending :=
  { pending with factors := pending.power operand :: pending.factors, bases := [] }

/-- A sign precedes the next operand. -/
def negate (pending : Pending) : Pending := { pending with negated := true }

/-- The term so far is the left operand of `*` or `/`. -/
def extendTerm (pending : Pending) (operand : Expr) (op : BinaryOp) : Pending :=
  { start with sum := pending.sum, quotient := some (pending.term operand, op) }

/-- The expression so far is the left operand of `+` or `-`. -/
def extendSum (pending : Pending) (operand : Expr) (op : BinaryOp) : Pending :=
  { start with sum := some (pending.expression operand, op) }

end Pending

end Calculator
