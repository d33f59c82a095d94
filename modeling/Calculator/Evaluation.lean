import Calculator.Expr.Eval
import Calculator.Grammar.Parse
import Calculator.Symbol.Table
/-!
# From a source to its value

`Context.parse` gives the expression that a source is, and `evaluate` its
value, both against one context. What a parser complains of is told apart
there: a lexical error is one, whoever met it (`Error.ofParse`).
`bindAndEvaluate` binds variables first, and they stay bound whatever
becomes of the source.
-/

namespace Calculator

/-- What can go wrong with a source or a table. -/
inductive Error where
  /-- Something in the source is no token. -/
  | lexical (error : Located LexError)
  /-- Its tokens are no expression. -/
  | syntactic (error : Located SyntaxError)
  /-- The expression has no value. -/
  | evaluation (error : EvalError)
  /-- A name stands for something of the other kind. -/
  | symbol (error : SymbolError)

namespace Error

/-- The text of an error. Only what is wrong with a source has a place to name. -/
def message : Error → String
  | lexical error => error.text LexError.message
  | syntactic error => error.text SyntaxError.message
  | evaluation error => error.message
  | symbol error => error.message

/-- **What a parser complains of**, with its place: a lexical error, or one of
syntax. -/
def ofParse (error : Located SyntaxError) : Error :=
  match error.value with
  | .lexical lexError => .lexical ⟨lexError, error.span⟩
  | value => .syntactic ⟨value, error.span⟩

variable {error complaint : Located SyntaxError} {lexError : Located LexError}

/-- It is lexical if the parser met a lexical error, which keeps its place. -/
theorem ofParse_eq_lexical_iff : ofParse error = .lexical lexError ↔
    error = lexError.map .lexical := by
  obtain ⟨value, span⟩ := error
  obtain ⟨lexValue, lexSpan⟩ := lexError
  cases value <;> simp [ofParse, Located.map]

/-- Any other complaint is one of syntax. -/
theorem ofParse_eq_syntactic_iff : ofParse error = .syntactic complaint ↔
    error = complaint ∧ ∀ lexError, complaint.value ≠ .lexical lexError := by
  obtain ⟨value, span⟩ := error
  constructor
  · intro h
    cases value with
    | lexical lexError => cases h
    | _ =>
      cases h
      exact ⟨rfl, nofun⟩
  · rintro ⟨rfl, hlexical⟩
    cases value with
    | lexical lexError => exact absurd rfl (hlexical lexError)
    | _ => rfl

/-- **Its text is that of the complaint** in either case. -/
theorem message_ofParse (error : Located SyntaxError) :
    (ofParse error).message = error.text SyntaxError.message := by
  obtain ⟨value, span⟩ := error
  cases value <;> rfl

end Error

namespace Context

/-- **The expression a source is**, in a context. -/
def parse (context : Context) (source : String) : Except Error Expr :=
  (Calculator.parse context source).mapError .ofParse

/-- **The value of a source in a context.** -/
def evaluate (context : Context) (source : String) : Except Error Float :=
  (context.parse source).bind fun expr => (expr.eval context).mapError .evaluation

variable {context : Context} {source : String} {tree : Expr}

/-- A source that is an expression has the value of its tree. -/
theorem evaluate_of_parse_eq_ok (h : Calculator.parse context source = .ok tree) :
    context.evaluate source = (tree.eval context).mapError .evaluation := by
  rw [evaluate, parse, h]
  rfl

/-- And any other has none, for what the parser complains of. -/
theorem evaluate_of_parse_eq_error {error : Located SyntaxError}
    (h : Calculator.parse context source = .error error) :
    context.evaluate source = .error (.ofParse error) := by
  rw [evaluate, parse, h]
  rfl

end Context

namespace SymbolTable

/-- The value of a source, its names being those of the table. -/
def evaluate (table : SymbolTable) (source : String) : Except Error Float :=
  table.context.evaluate source

/-- Binds variables and evaluates a source with them. If one cannot be
bound, the source is not looked at. -/
def bindAndEvaluate (table : SymbolTable) (source : String) (bindings : List (String × Float)) :
    Except Error Float × SymbolTable :=
  match table.bindAll bindings with
  | (.ok (), table) => (table.evaluate source, table)
  | (.error error, table) => (.error (.symbol error), table)

end SymbolTable

end Calculator
