import Calculator.Grammar.Descent
import Calculator.Proofs.Token.Source
/-!
# Descent by fuel

The routines of the grammar once more, with nothing that says why they end. Each of
their calls, and each round of a loop, takes up some fuel, and a run that has none left
halts. Tokens are read off a text, and a run keeps a log of what it does: which routine
it comes to, what it looks at and what it reads, and where its cursor stands before and
after.
-/

namespace Calculator

/-- **The routines that call each other.** The loops over terms, factors and arguments
are routines of their own, which are come to for each round. -/
inductive Routine where
  | expression
  | sums
  | term
  | quotients
  | factor
  | product
  | power
  | postfixed
  | primary
  | identifier
  | call
  | arguments
deriving DecidableEq, Repr

/-- **The rank of a routine.** Until a token is read, only routines of lower rank are
come to, in calls and after them. -/
def Routine.rank : Routine → Nat
  | call => 0
  | primary => 1
  | postfixed => 2
  | power => 3
  | product => 4
  | factor => 5
  | term => 6
  | expression => 7
  | arguments => 8
  | sums => 9
  | quotients => 10
  | identifier => 11

/-- What a run does. -/
inductive Act where
  | enter (routine : Routine)
  | look (reading : Reading)
  | read (reading : Reading)

/-- What a run does, and where its cursor stands before and after. -/
structure Event where
  act : Act
  before : Cursor
  after : Cursor

/-- How far a run has come: where it stands, and its log. -/
structure Trail where
  cursor : Cursor
  log : List Event

/-- Why a run halts without a value. -/
inductive Halt where
  | outOfFuel
  | failed (error : Located SyntaxError)

/-- Runs that keep a log. -/
abbrev Traced (α : Type) := ExceptT Halt (StateM Trail) α

namespace Traced

open Descent (Outcome)

variable {α : Type}

/-! ## Tokens -/

/-- Logs what is done, and goes to where it leads. -/
def note (act : Act) (after : Cursor) : Traced Unit :=
  modify fun trail => ⟨after, trail.log ++ [⟨act, trail.cursor, after⟩]⟩

/-- Comes to a routine. -/
def enter (routine : Routine) : Traced Unit := do
  note (.enter routine) (← get).cursor

/-- Halts with an error. -/
def fail (error : Located SyntaxError) : Traced α := throw (.failed error)

/-- Gives a value, or halts with the error in its place. -/
def ofOutcome : Outcome α → Traced α
  | .ok value => return value
  | .error error => fail error

/-- Gives the token of a reading. -/
def ofReading (reading : Reading) : Traced Token :=
  ofOutcome (reading.mapError (·.map .lexical))

/-- Looks at the next token. -/
def peek : Traced Token := do
  let (reading, after) := (← get).cursor.peekToken
  note (.look reading) after
  ofReading reading

/-- Reads the next token. -/
def next : Traced Token := do
  let (reading, after) := (← get).cursor.nextToken
  note (.read reading) after
  ofReading reading

/-- A look is logged, and the cursor is where it was. -/
theorem peek_eq (cursor : Cursor) (log : List Event) : peek ⟨cursor, log⟩ =
    ofReading cursor.nextToken.1 ⟨cursor, log ++ [⟨.look cursor.nextToken.1, cursor, cursor⟩]⟩ := by
  show ofReading cursor.peekToken.1
    ⟨cursor.peekToken.2, log ++ [⟨.look cursor.peekToken.1, cursor, cursor.peekToken.2⟩]⟩ = _
  rw [cursor.peekToken_eq]

/-- So is a read, and the cursor is where it led. -/
theorem next_eq (cursor : Cursor) (log : List Event) : next ⟨cursor, log⟩ =
    ofReading cursor.nextToken.1 ⟨cursor.nextToken.2,
      log ++ [⟨.read cursor.nextToken.1, cursor, cursor.nextToken.2⟩]⟩ :=
  rfl

/-- Reads the next token if it is of this kind. -/
def nextIf (kind : Kind) : Traced (Option Token) := do
  let seen ← peek
  if seen.kind = kind then
    let token ← next
    return some token
  else return none

/-- Reads the next token, which has to be of this kind. -/
def expect (kind : Kind) : Traced Token := do
  let token ← next
  if token.kind = kind then return token
  else fail ⟨.unexpectedToken [kind] token.kind, token.span⟩

/-- Looks whether an operand follows an operator, with a sign only where one may be. -/
def expectOperand (operator : Token) (signed : Bool) : Traced Unit := do
  let seen ← peek
  if seen.kind.startsOperand ∨ signed ∧ seen.kind = .minus then return ()
  else fail ⟨.missingOperand operator.kind seen.kind, seen.span⟩

/-- Reads an operator, which an operand has to follow, with a sign or without. -/
def nextOperator : Traced Unit := do
  let operator ← next
  expectOperand operator true

/-! ## Routines -/

mutual

/-- An expression. -/
def expression (context : Context) : Nat → Traced Expr
  | 0 => throw .outOfFuel
  | fuel + 1 => do
    enter .expression
    let first ← term context fuel
    sums context first fuel

/-- A round of the loop over the terms of a sum. -/
def sums (context : Context) (sum : Expr) : Nat → Traced Expr
  | 0 => throw .outOfFuel
  | fuel + 1 => do
    enter .sums
    let seen ← peek
    match Descent.sumOperation? seen.kind with
    | none => return sum
    | some op =>
      nextOperator
      let right ← term context fuel
      sums context (.binary op sum right) fuel

/-- A term. -/
def term (context : Context) : Nat → Traced Expr
  | 0 => throw .outOfFuel
  | fuel + 1 => do
    enter .term
    let first ← factor context fuel
    quotients context first fuel

/-- A round of the loop over the factors of a term. -/
def quotients (context : Context) (quotient : Expr) : Nat → Traced Expr
  | 0 => throw .outOfFuel
  | fuel + 1 => do
    enter .quotients
    let seen ← peek
    match Descent.termOperation? seen.kind with
    | none => return quotient
    | some op =>
      nextOperator
      let right ← factor context fuel
      quotients context (.binary op quotient right) fuel

/-- A factor. -/
def factor (context : Context) : Nat → Traced Expr
  | 0 => throw .outOfFuel
  | fuel + 1 => do
    enter .factor
    let sign ← nextIf .minus
    match sign with
    | none => product context fuel
    | some minus =>
      expectOperand minus false
      let operand ← product context fuel
      return .neg operand

/-- A product of juxtaposed operands. -/
def product (context : Context) : Nat → Traced Expr
  | 0 => throw .outOfFuel
  | fuel + 1 => do
    enter .product
    let first ← power context fuel
    let seen ← peek
    if seen.kind.startsOperand then
      let others ← product context fuel
      return .binary .mul first others
    else return first

/-- A power. -/
def power (context : Context) : Nat → Traced Expr
  | 0 => throw .outOfFuel
  | fuel + 1 => do
    enter .power
    let base ← postfixed context fuel
    let operator ← nextIf .caret
    match operator with
    | none => return base
    | some caret =>
      expectOperand caret false
      let exponent ← power context fuel
      return .binary .pow base exponent

/-- An operand, or its factorial. -/
def postfixed (context : Context) : Nat → Traced Expr
  | 0 => throw .outOfFuel
  | fuel + 1 => do
    enter .postfixed
    let operand ← primary context fuel
    let sign ← nextIf .bang
    match sign with
    | none => return operand
    | some _ => return .fact operand

/-- An operand. -/
def primary (context : Context) : Nat → Traced Expr
  | 0 => throw .outOfFuel
  | fuel + 1 => do
    enter .primary
    let token ← next
    match token.kind with
    | .number => ofOutcome (Descent.number token)
    | .identifier => identifier context token fuel
    | .openParen =>
      let inner ← expression context fuel
      let _ ← expect .closeParen
      return inner
    | .endOfInput => fail ⟨.unexpectedEnd, token.span⟩
    | found => fail ⟨.unexpectedToken Machine.operandKinds found, token.span⟩

/-- What an identifier stands for, with its arguments if it is a function. -/
def identifier (context : Context) (token : Token) : Nat → Traced Expr
  | 0 => throw .outOfFuel
  | fuel + 1 => do
    enter .identifier
    match context.lookup token.text with
    | none => fail ⟨.undefinedIdentifier token.text, token.span⟩
    | some (.var _) => return .var token.text
    | some (.fn operation) => call context token operation.arity fuel

/-- A call, of which the name was read. -/
def call (context : Context) (name : Token) (arity : Nat) : Nat → Traced Expr
  | 0 => throw .outOfFuel
  | fuel + 1 => do
    enter .call
    let _ ← expect .openParen
    let closing ← nextIf .closeParen
    match closing with
    | some last => ofOutcome (Descent.applied name arity [] last)
    | none => arguments context name arity [] fuel

/-- A round of the loop over the arguments of a call. -/
def arguments (context : Context) (name : Token) (arity : Nat) (done : List Expr) :
    Nat → Traced Expr
  | 0 => throw .outOfFuel
  | fuel + 1 => do
    enter .arguments
    let argument ← expression context fuel
    let token ← next
    match token.kind with
    | .comma => arguments context name arity (done ++ [argument]) fuel
    | .closeParen => ofOutcome (Descent.applied name arity (done ++ [argument]) token)
    | found => fail ⟨.unexpectedToken [.comma, .closeParen] found, token.span⟩

end

/-- **The expression that all of a text is.** -/
def whole (context : Context) (fuel : Nat) : Traced Expr := do
  let tree ← expression context fuel
  let last ← next
  if last.kind = .endOfInput then return tree
  else fail ⟨.trailingInput last.text, last.span⟩

/-- **The tokens of a text**, behind those that were read before. Each read takes up
some fuel. -/
def tokens (before : List Token) : Nat → Traced (List Token)
  | 0 => throw .outOfFuel
  | fuel + 1 => do
    let token ← next
    if token.kind = .endOfInput then return before ++ [token]
    else tokens (before ++ [token]) fuel

end Traced

end Calculator
