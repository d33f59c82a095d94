import Calculator.Grammar.Machine
import Calculator.Token.Source
/-!
# Recursive descent

The grammar as routines that call each other, one for each of its levels:

    expression := term (('+' | '-') term)*
    term       := factor (('*' | '/') factor)*
    factor     := '-'? product
    product    := power product?
    power      := postfix ('^' power)?
    postfix    := primary '!'?
    primary    := identifier | number | '(' expression ')'
    call       := identifier '(' (expression (',' expression)*)? ')'

A routine looks at the next token to see whether its level goes on, and then
reads that token again. Each takes at least a token, so they end on any source
of tokens. They say the same of a source as a machine does that never looks.
-/

namespace Calculator

namespace Descent

open TokenSource

variable {σ : Type} [TokenSource σ] {α β : Type} {s : σ}

/-- What comes of a routine. -/
abbrev Outcome (α : Type) := Except (Located SyntaxError) α

/-! ## Results -/

/-- A value, and what is left of the source after it. -/
structure Taken (s : σ) (α : Type) where
  value : α
  rest : σ
  left_le : left rest ≤ left s

/-- A tree, and what is left of the source after its tokens. -/
structure Parsed (s : σ) where
  tree : Expr
  rest : σ
  left_lt : left rest < left s

/-- What was taken after something else. -/
def Taken.trans (taken : Taken s β) (later : Taken taken.rest α) : Taken s α :=
  ⟨later.value, later.rest, Nat.le_trans later.left_le taken.left_le⟩

/-- What was parsed after something else was taken. -/
def Taken.before (taken : Taken s α) (parsed : Parsed taken.rest) : Parsed s :=
  ⟨parsed.tree, parsed.rest, Nat.lt_of_lt_of_le parsed.left_lt taken.left_le⟩

namespace Parsed

/-- What was parsed, up to something that was taken after it. -/
def upTo (parsed : Parsed s) (taken : Taken parsed.rest α) : Parsed s :=
  ⟨parsed.tree, taken.rest, Nat.lt_of_le_of_lt taken.left_le parsed.left_lt⟩

/-- Another tree of the same tokens. -/
def map (f : Expr → Expr) (parsed : Parsed s) : Parsed s :=
  ⟨f parsed.tree, parsed.rest, parsed.left_lt⟩

/-- Two operands, one after the other, under an operation. -/
def join (op : BinaryOp) (first : Parsed s) (second : Parsed first.rest) : Parsed s :=
  ⟨.binary op first.tree second.tree, second.rest, Nat.lt_trans second.left_lt first.left_lt⟩

end Parsed

/-! ## Tokens -/

/-- A token that was read. -/
structure Next (s : σ) extends Taken s Token where
  left_lt : value.kind ≠ .endOfInput → left rest < left s

/-- Looks at the next token. -/
def peek (s : σ) : Outcome (Taken s Token) :=
  match h : TokenSource.peek s with
  | (.error error, _) => .error (error.map .lexical)
  | (.ok token, rest) => .ok ⟨token, rest, by
      rw [peek_eq, Prod.mk.injEq] at h
      exact Nat.le_of_eq (congrArg left h.2.symm)⟩

/-- Reads the next token. -/
def next (s : σ) : Outcome (Next s) :=
  match h : TokenSource.next s with
  | (.error error, _) => .error (error.map .lexical)
  | (.ok token, rest) => .ok ⟨⟨token, rest, TokenSource.left_le h⟩, TokenSource.left_lt h⟩

/-- Reads the next token if it is of this kind. -/
def nextIf (kind : Kind) (s : σ) : Outcome (Taken s (Option Token)) := do
  let seen ← peek s
  if seen.value.kind = kind then
    let token ← next seen.rest
    return seen.trans ⟨some token.value, token.rest, token.left_le⟩
  else return ⟨none, seen.rest, seen.left_le⟩

/-- Reads the next token, which has to be of this kind. -/
def expect (kind : Kind) (s : σ) : Outcome (Taken s Token) := do
  let token ← next s
  if token.value.kind = kind then return token.toTaken
  else .error ⟨.unexpectedToken [kind] token.value.kind, token.value.span⟩

/-- Looks whether an operand follows an operator, with a sign only where one may be. -/
def expectOperand (operator : Token) (signed : Bool) (s : σ) : Outcome (Taken s Unit) := do
  let seen ← peek s
  if seen.value.kind.startsOperand ∨ signed ∧ seen.value.kind = .minus then
    return ⟨(), seen.rest, seen.left_le⟩
  else .error ⟨.missingOperand operator.kind seen.value.kind, seen.value.span⟩

/-- Reads an operator, which an operand has to follow, with a sign or without. -/
def nextOperator (s : σ) : Outcome (Taken s Unit) := do
  let operator ← next s
  let ready ← expectOperand operator.value true operator.rest
  return operator.trans ready

/-- The number a token is. -/
def number (token : Token) : Outcome Expr :=
  if Literal.isNumber token.text.toList then .ok (.num (Literal.valueOf token.text))
  else .error ⟨.lexical (.malformedNumber token.text), token.span⟩

/-- A call of these arguments, whose parenthesis closes with this token. -/
def applied (name : Token) (arity : Nat) (trees : List Expr) (closing : Token) : Outcome Expr :=
  if trees.length = arity then .ok (.call name.text trees)
  else .error ⟨.arityMismatch ⟨name.text, arity, trees.length⟩, name.start, closing.stop⟩

/-! ## Routines -/

/-- The operation of an operator between terms. -/
def sumOperation? (kind : Kind) : Option BinaryOp :=
  match kind with
  | .plus | .minus => BinaryOp.ofKind? kind
  | _ => none

/-- The operation of an operator between factors. -/
def termOperation? (kind : Kind) : Option BinaryOp :=
  match kind with
  | .star | .slash => BinaryOp.ofKind? kind
  | _ => none

mutual

/-- An expression. -/
def expression (context : Context) (s : σ) : Outcome (Parsed s) := do
  let first ← term context s
  sums context first
termination_by 16 * left s + 7
decreasing_by
  · omega
  · have := first.left_lt
    omega

/-- Goes on with the terms that are added to a sum, or subtracted from it. -/
def sums (context : Context) {s : σ} (sum : Parsed s) : Outcome (Parsed s) := do
  let seen ← peek sum.rest
  match sumOperation? seen.value.kind with
  | none => return sum.upTo seen
  | some op =>
    let ready ← nextOperator seen.rest
    let right ← term context ready.rest
    sums context (sum.join op (seen.before (ready.before right)))
termination_by 16 * left sum.rest + 8
decreasing_by
  · have := seen.left_le
    have := ready.left_le
    omega
  · have := seen.left_le
    have := ready.left_le
    have := right.left_lt
    dsimp only [Parsed.join, Taken.before]
    omega

/-- A term. -/
def term (context : Context) (s : σ) : Outcome (Parsed s) := do
  let first ← factor context s
  quotients context first
termination_by 16 * left s + 5
decreasing_by
  · omega
  · have := first.left_lt
    omega

/-- Goes on with the factors that a term is multiplied with, or divided by. -/
def quotients (context : Context) {s : σ} (quotient : Parsed s) : Outcome (Parsed s) := do
  let seen ← peek quotient.rest
  match termOperation? seen.value.kind with
  | none => return quotient.upTo seen
  | some op =>
    let ready ← nextOperator seen.rest
    let right ← factor context ready.rest
    quotients context (quotient.join op (seen.before (ready.before right)))
termination_by 16 * left quotient.rest + 6
decreasing_by
  · have := seen.left_le
    have := ready.left_le
    omega
  · have := seen.left_le
    have := ready.left_le
    have := right.left_lt
    dsimp only [Parsed.join, Taken.before]
    omega

/-- A factor. -/
def factor (context : Context) (s : σ) : Outcome (Parsed s) := do
  let sign ← nextIf .minus s
  match sign.value with
  | none =>
    let operand ← product context sign.rest
    return sign.before operand
  | some minus =>
    let ready ← expectOperand minus false sign.rest
    let operand ← product context ready.rest
    return sign.before (ready.before (operand.map .neg))
termination_by 16 * left s + 4
decreasing_by
  · have := sign.left_le
    omega
  · have := sign.left_le
    have := ready.left_le
    omega

/-- A product of juxtaposed operands. -/
def product (context : Context) (s : σ) : Outcome (Parsed s) := do
  let first ← power context s
  let seen ← peek first.rest
  if seen.value.kind.startsOperand then
    let others ← product context seen.rest
    return first.join .mul (seen.before others)
  else return first.upTo seen
termination_by 16 * left s + 3
decreasing_by
  · omega
  · have := first.left_lt
    have := seen.left_le
    omega

/-- A power. -/
def power (context : Context) (s : σ) : Outcome (Parsed s) := do
  let base ← postfixed context s
  let operator ← nextIf .caret base.rest
  match operator.value with
  | none => return base.upTo operator
  | some caret =>
    let ready ← expectOperand caret false operator.rest
    let exponent ← power context ready.rest
    return base.join .pow (operator.before (ready.before exponent))
termination_by 16 * left s + 2
decreasing_by
  · omega
  · have := base.left_lt
    have := operator.left_le
    have := ready.left_le
    omega

/-- An operand, or its factorial. -/
def postfixed (context : Context) (s : σ) : Outcome (Parsed s) := do
  let operand ← primary context s
  let sign ← nextIf .bang operand.rest
  match sign.value with
  | none => return operand.upTo sign
  | some _ => return (operand.map .fact).upTo sign
termination_by 16 * left s + 1
decreasing_by
  omega

/-- An operand. -/
def primary (context : Context) (s : σ) : Outcome (Parsed s) := do
  let token ← next s
  match hkind : token.value.kind with
  | .number =>
    let tree ← number token.value
    return ⟨tree, token.rest, token.left_lt (by simp [hkind])⟩
  | .identifier =>
    let named ← identifier context token.value token.rest
    return ⟨named.value, named.rest,
      Nat.lt_of_le_of_lt named.left_le (token.left_lt (by simp [hkind]))⟩
  | .openParen =>
    let inner ← expression context token.rest
    let closing ← expect .closeParen inner.rest
    return token.before (inner.upTo closing)
  | .endOfInput => .error ⟨.unexpectedEnd, token.value.span⟩
  | found => .error ⟨.unexpectedToken Machine.operandKinds found, token.value.span⟩
termination_by 16 * left s
decreasing_by
  · have := token.left_lt (by simp [hkind])
    omega
  · have := token.left_lt (by simp [hkind])
    omega

/-- What an identifier stands for, with the arguments it is applied to if it
is a function. -/
def identifier (context : Context) (token : Token) (s : σ) : Outcome (Taken s Expr) :=
  match context.lookup token.text with
  | none => .error ⟨.undefinedIdentifier token.text, token.span⟩
  | some (.var _) => .ok ⟨.var token.text, s, Nat.le_refl _⟩
  | some (.fn operation) => call context token operation.arity s
termination_by 16 * left s + 11
decreasing_by
  omega

/-- A call, of which the name was read. -/
def call (context : Context) (name : Token) (arity : Nat) (s : σ) : Outcome (Taken s Expr) := do
  let opening ← expect .openParen s
  let closing ← nextIf .closeParen opening.rest
  match closing.value with
  | some last =>
    let tree ← applied name arity [] last
    return opening.trans ⟨tree, closing.rest, closing.left_le⟩
  | none =>
    let called ← arguments context name arity [] closing.rest
    return opening.trans (closing.trans called)
termination_by 16 * left s + 10
decreasing_by
  have := opening.left_le
  have := closing.left_le
  omega

/-- A call, of which arguments are still to come. -/
def arguments (context : Context) (name : Token) (arity : Nat) (done : List Expr) (s : σ) :
    Outcome (Taken s Expr) := do
  let argument ← expression context s
  let token ← next argument.rest
  match token.value.kind with
  | .comma =>
    let called ← arguments context name arity (done ++ [argument.tree]) token.rest
    return ⟨called.value, called.rest, Nat.le_of_lt
      (Nat.lt_of_le_of_lt called.left_le (Nat.lt_of_le_of_lt token.left_le argument.left_lt))⟩
  | .closeParen =>
    let tree ← applied name arity (done ++ [argument.tree]) token.value
    return ⟨tree, token.rest, Nat.le_of_lt (Nat.lt_of_le_of_lt token.left_le argument.left_lt)⟩
  | found => .error ⟨.unexpectedToken [.comma, .closeParen] found, token.value.span⟩
termination_by 16 * left s + 9
decreasing_by
  · omega
  · have := argument.left_lt
    have := token.left_le
    omega

end

/-- **The expression that all of a source is.** -/
def whole (context : Context) (s : σ) : Outcome Expr := do
  let parsed ← expression context s
  let last ← next parsed.rest
  if last.value.kind = .endOfInput then return parsed.tree
  else .error ⟨.trailingInput last.value.text, last.value.span⟩

end Descent

end Calculator
