import Calculator.Grammar.Error
import Calculator.Grammar.Pending
import Calculator.Symbol.Context
/-!
# Reading an expression token by token

A machine holds what has been read of an expression: the brackets that are
open, the parts that wait for an operand, and what may come next. Each
token takes it one step further (`Machine.step`), and the end of the input
completes it (`Machine.finish`). No token is looked at twice, and no step
looks ahead. A token that cannot come next is refused, and what the refusal
says depends on the phase and on the innermost bracket alone
(`Machine.complaint`).

Identifiers are looked up as they are read: a function must be followed by
its arguments, and their number is checked where the call ends.
-/

namespace Calculator

/-- An open parenthesis. -/
inductive Bracket where
  /-- It groups an expression. -/
  | group
  /-- It opens the arguments of a function; those that are complete are
  listed the last first. -/
  | call (name : Token) (arity : Nat) (arguments : List Expr)

/-- An open parenthesis, and what waits outside it. -/
structure Level where
  bracket : Bracket
  outer : Pending

/-- What may come next. -/
inductive Phase where
  /-- An expression begins. -/
  | start
  /-- The operand of an operator is due, with a sign only where one may be. -/
  | operand (operator : Kind) (signed : Bool)
  /-- The arguments of a function are due. -/
  | callee (name : Token) (arity : Nat)
  /-- An operand is complete; if it is bare, a factorial may be taken of it. -/
  | complete (operand : Expr) (bare : Bool)

/-- What has been read of an expression. The brackets are listed the
innermost first. -/
structure Machine where
  levels : List Level
  pending : Pending
  phase : Phase

/-- The binary operation that a token is the operator of. -/
def BinaryOp.ofKind? : Kind → Option BinaryOp
  | .plus => some .add
  | .minus => some .sub
  | .star => some .mul
  | .slash => some .div
  | .caret => some .pow
  | _ => none

namespace Machine

/-- Nothing has been read. -/
def start : Machine := ⟨[], .start, .start⟩

/-- The kinds an operand can begin with. -/
def operandKinds : List Kind := [.number, .identifier, .openParen]

/-! ## Refusals -/

/-- What is wrong with a token that cannot come next. -/
def complaint (machine : Machine) (token : Token) : SyntaxError :=
  match machine.phase with
  | .start =>
    if token.kind = .endOfInput then .unexpectedEnd else .unexpectedToken operandKinds token.kind
  | .operand operator _ => .missingOperand operator token.kind
  | .callee _ _ => .unexpectedToken [.openParen] token.kind
  | .complete _ _ =>
    match machine.levels with
    | [] => .trailingInput token.text
    | ⟨.group, _⟩ :: _ => .unexpectedToken [.closeParen] token.kind
    | ⟨.call .., _⟩ :: _ => .unexpectedToken [.comma, .closeParen] token.kind

/-- **A refusal is located at the token it refuses.** -/
def refuse {α : Type} (machine : Machine) (token : Token) : Except (Located SyntaxError) α :=
  .error ⟨machine.complaint token, token.span⟩

/-! ## Steps -/

/-- The operand is complete. -/
def completed (machine : Machine) (operand : Expr) : Machine :=
  { machine with phase := .complete operand true }

/-- Begins an operand with a token. -/
def beginOperand (context : Context) (machine : Machine) (token : Token) :
    Except (Located SyntaxError) Machine :=
  match token.kind with
  | .number => .ok (machine.completed (.num (Literal.valueOf token.text)))
  | .identifier =>
    match context.lookup token.text with
    | none => .error ⟨.undefinedIdentifier token.text, token.span⟩
    | some (.var _) => .ok (machine.completed (.var token.text))
    | some (.fn operation) => .ok { machine with phase := .callee token operation.arity }
  | .openParen => .ok ⟨⟨.group, machine.pending⟩ :: machine.levels, .start, .start⟩
  | _ => machine.refuse token

/-- Negates the operand to come. -/
def takeSign (machine : Machine) : Machine :=
  { machine with pending := machine.pending.negate, phase := .operand .minus false }

/-- Ends a call, outside which `outer` waits. The arguments are listed the
last first, as the bracket lists them. -/
def endCall (name : Token) (arity : Nat) (arguments : List Expr) (outer : Pending)
    (levels : List Level) (token : Token) : Except (Located SyntaxError) Machine :=
  if arguments.length = arity then
    .ok ⟨levels, outer, .complete (.call name.text arguments.reverse) true⟩
  else .error ⟨.arityMismatch ⟨name.text, arity, arguments.length⟩, name.start, token.stop⟩

/-- A step where an expression begins. Right after the parenthesis of a
call, its other parenthesis may follow. -/
def stepStart (context : Context) (machine : Machine) (token : Token) :
    Except (Located SyntaxError) Machine :=
  match token.kind, machine.levels with
  | .minus, _ => .ok machine.takeSign
  | .closeParen, ⟨.call name arity [], outer⟩ :: levels => endCall name arity [] outer levels token
  | _, _ => machine.beginOperand context token

/-- A step where the operand of an operator is due. -/
def stepOperand (context : Context) (machine : Machine) (signed : Bool) (token : Token) :
    Except (Located SyntaxError) Machine :=
  if token.kind = .minus ∧ signed then .ok machine.takeSign else machine.beginOperand context token

/-- A step where the arguments of a function are due. -/
def stepCallee (machine : Machine) (name : Token) (arity : Nat) (token : Token) :
    Except (Located SyntaxError) Machine :=
  if token.kind = .openParen then
    .ok ⟨⟨.call name arity [], machine.pending⟩ :: machine.levels, .start, .start⟩
  else machine.refuse token

/-- A step after a whole expression, which only a bracket or a comma can be. -/
def stepExpression (machine : Machine) (expression : Expr) (token : Token) :
    Except (Located SyntaxError) Machine :=
  match token.kind, machine.levels with
  | .closeParen, ⟨.group, outer⟩ :: levels => .ok ⟨levels, outer, .complete expression true⟩
  | .closeParen, ⟨.call name arity arguments, outer⟩ :: levels =>
    endCall name arity (expression :: arguments) outer levels token
  | .comma, ⟨.call name arity arguments, outer⟩ :: levels =>
    .ok ⟨⟨.call name arity (expression :: arguments), outer⟩ :: levels, .start, .start⟩
  | _, _ => machine.refuse token

/-- A step after an operand. -/
def stepComplete (context : Context) (machine : Machine) (operand : Expr) (bare : Bool)
    (token : Token) : Except (Located SyntaxError) Machine :=
  let pending := machine.pending
  match token.kind with
  | .bang =>
    if bare then .ok { machine with phase := .complete (.fact operand) false }
    else machine.refuse token
  | .caret => .ok { machine with pending := pending.raise operand, phase := .operand .caret false }
  | .star => .ok (continueWith (pending.extendTerm operand .mul))
  | .slash => .ok (continueWith (pending.extendTerm operand .div))
  | .plus => .ok (continueWith (pending.extendSum operand .add))
  | .minus => .ok (continueWith (pending.extendSum operand .sub))
  | .number | .identifier | .openParen =>
    { machine with pending := pending.juxtapose operand }.beginOperand context token
  | _ => machine.stepExpression (pending.expression operand) token
where
  /-- The operator has taken its left operand, and the right one may have a sign. -/
  continueWith (pending : Pending) : Machine :=
    { machine with pending := pending, phase := .operand token.kind true }

/-- **Reads one token**, which is not the end of the input. -/
def step (context : Context) (machine : Machine) (token : Token) :
    Except (Located SyntaxError) Machine :=
  match machine.phase with
  | .start => machine.stepStart context token
  | .operand _ signed => machine.stepOperand context signed token
  | .callee name arity => machine.stepCallee name arity token
  | .complete operand bare => machine.stepComplete context operand bare token

/-- **Reads the end of the input**, where the expression has to be complete
and every bracket closed. -/
def finish (machine : Machine) (token : Token) : Except (Located SyntaxError) Expr :=
  match machine.phase, machine.levels with
  | .complete operand _, [] => .ok (machine.pending.expression operand)
  | _, _ => machine.refuse token

end Machine

end Calculator
