import Calculator.Grammar.Machine
/-!
# The grammar of expressions

What an expression is, said without a machine. `Derives` relates tokens to
the phrase they are, one constructor for each alternative of the grammar:

    expression := term (('+' | '-') term)*
    term       := factor (('*' | '/') factor)*
    factor     := '-'? product
    product    := power product?
    power      := postfix ('^' power)?
    postfix    := primary '!'?
    primary    := number | variable | '(' expression ')' | function '(' arguments ')'
    arguments  := (expression (',' expression)*)?

A context decides which identifiers are variables and which are functions.
Whether a call has to have as many arguments as its function takes is up to
the grammar, so that the shape of a sentence can be asked for on its own.
-/

namespace Calculator

/-- What the phrases of expressions depend on. -/
structure Grammar where
  /-- What identifiers stand for. -/
  context : Context
  /-- The arguments of a call are counted. -/
  counted : Bool

/-- **The grammar of a context**, in which arguments are counted. -/
def Context.grammar (context : Context) : Grammar := ⟨context, true⟩

/-- The grammar of a context, in which a call may have any number of arguments. -/
def Context.laxGrammar (context : Context) : Grammar := ⟨context, false⟩

/-- A phrase of the grammar, together with what it stands for. -/
inductive Phrase where
  | expression (tree : Expr)
  | term (tree : Expr)
  | factor (tree : Expr)
  | product (tree : Expr)
  | power (tree : Expr)
  | postfixed (tree : Expr)
  | primary (tree : Expr)
  | arguments (trees : List Expr)

/-- The operators between terms. -/
def sumOperators : List (Kind × BinaryOp) := [(.plus, .add), (.minus, .sub)]

/-- The operators between factors. -/
def termOperators : List (Kind × BinaryOp) := [(.star, .mul), (.slash, .div)]

/-- An operation takes this many arguments, as far as they are counted. -/
def Grammar.Admits (grammar : Grammar) (operation : Operation) (count : Nat) : Prop :=
  grammar.counted = true → count = operation.arity

/-- Where arguments are not counted, any number of them will do. -/
theorem Context.laxGrammar_admits (context : Context) (operation : Operation) (count : Nat) :
    context.laxGrammar.Admits operation count :=
  nofun

/-- **The tokens are a phrase.** A chain of operators is a shorter chain and
its last operand, so sums and quotients group to the left. Powers and
juxtaposed operands group to the right, a sign negates a whole product, and
parentheses add nothing to the tree. -/
inductive Derives (grammar : Grammar) : List Token → Phrase → Prop
  | ofTerm {ts : List Token} {e : Expr} :
      Derives grammar ts (.term e) → Derives grammar ts (.expression e)
  | sum {ls rs : List Token} {sign : Token} {op : BinaryOp} {l r : Expr} :
      Derives grammar ls (.expression l) → (sign.kind, op) ∈ sumOperators →
      Derives grammar rs (.term r) →
      Derives grammar (ls ++ sign :: rs) (.expression (.binary op l r))
  | ofFactor {ts : List Token} {e : Expr} :
      Derives grammar ts (.factor e) → Derives grammar ts (.term e)
  | quotient {ls rs : List Token} {sign : Token} {op : BinaryOp} {l r : Expr} :
      Derives grammar ls (.term l) → (sign.kind, op) ∈ termOperators →
      Derives grammar rs (.factor r) →
      Derives grammar (ls ++ sign :: rs) (.term (.binary op l r))
  | ofProduct {ts : List Token} {e : Expr} :
      Derives grammar ts (.product e) → Derives grammar ts (.factor e)
  | negation {ts : List Token} {sign : Token} {e : Expr} :
      sign.kind = .minus → Derives grammar ts (.product e) →
      Derives grammar (sign :: ts) (.factor (.neg e))
  | ofPower {ts : List Token} {e : Expr} :
      Derives grammar ts (.power e) → Derives grammar ts (.product e)
  | juxtaposition {ls rs : List Token} {l r : Expr} :
      Derives grammar ls (.power l) → Derives grammar rs (.product r) →
      Derives grammar (ls ++ rs) (.product (.binary .mul l r))
  | ofPostfixed {ts : List Token} {e : Expr} :
      Derives grammar ts (.postfixed e) → Derives grammar ts (.power e)
  | exponentiation {ls rs : List Token} {sign : Token} {l r : Expr} :
      Derives grammar ls (.postfixed l) → sign.kind = .caret → Derives grammar rs (.power r) →
      Derives grammar (ls ++ sign :: rs) (.power (.binary .pow l r))
  | ofPrimary {ts : List Token} {e : Expr} :
      Derives grammar ts (.primary e) → Derives grammar ts (.postfixed e)
  | factorial {ts : List Token} {sign : Token} {e : Expr} :
      Derives grammar ts (.primary e) → sign.kind = .bang →
      Derives grammar (ts ++ [sign]) (.postfixed (.fact e))
  | number {t : Token} :
      t.kind = .number → Derives grammar [t] (.primary (.num (Literal.valueOf t.text)))
  | boundVariable {t : Token} {value : Float} :
      t.kind = .identifier → grammar.context.lookup t.text = some (.var value) →
      Derives grammar [t] (.primary (.var t.text))
  | group {ts : List Token} {opening closing : Token} {e : Expr} :
      opening.kind = .openParen → Derives grammar ts (.expression e) →
      closing.kind = .closeParen →
      Derives grammar (opening :: (ts ++ [closing])) (.primary e)
  | call {ts : List Token} {name opening closing : Token} {operation : Operation}
      {es : List Expr} :
      name.kind = .identifier → grammar.context.lookup name.text = some (.fn operation) →
      opening.kind = .openParen → Derives grammar ts (.arguments es) →
      closing.kind = .closeParen → grammar.Admits operation es.length →
      Derives grammar (name :: opening :: (ts ++ [closing])) (.primary (.call name.text es))
  | noArguments : Derives grammar [] (.arguments [])
  | firstArgument {ts : List Token} {e : Expr} :
      Derives grammar ts (.expression e) → Derives grammar ts (.arguments [e])
  | nextArgument {ls rs : List Token} {comma : Token} {es : List Expr} {e : Expr} :
      Derives grammar ls (.arguments es) → es ≠ [] → comma.kind = .comma →
      Derives grammar rs (.expression e) →
      Derives grammar (ls ++ comma :: rs) (.arguments (es ++ [e]))

end Calculator
