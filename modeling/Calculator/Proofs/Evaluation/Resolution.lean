import Calculator.Evaluation
import Calculator.Proofs.Grammar.Parsing
/-!
# Trees that resolve

A tree resolves in a context if each of its names stands for what the tree
uses it as. Parsing gives such trees only (`Derives.resolves`), and of them
evaluation asks no more than that calls have as many arguments as their
functions take and that factorials are taken of natural numbers
(`Expr.Resolves.eval`). So whatever the parser lets through can only fail
at a factorial (`eval_of_parse`).
-/

namespace Calculator

variable {grammar : Grammar} {context : Context} {tree : Expr}

/-- **Each name stands for what the tree uses it as**, and each call has a
number of arguments that the grammar admits. -/
inductive Expr.Resolves (grammar : Grammar) : Expr → Prop
  | num {value : Float} : Expr.Resolves grammar (.num value)
  | var {name : String} {value : Float} :
      grammar.context.lookup name = some (.var value) → Expr.Resolves grammar (.var name)
  | call {name : String} {operation : Operation} {arguments : List Expr} :
      grammar.context.lookup name = some (.fn operation) →
      grammar.Admits operation arguments.length →
      (∀ argument ∈ arguments, Expr.Resolves grammar argument) →
      Expr.Resolves grammar (.call name arguments)
  | neg {operand : Expr} : Expr.Resolves grammar operand → Expr.Resolves grammar (.neg operand)
  | fact {operand : Expr} : Expr.Resolves grammar operand → Expr.Resolves grammar (.fact operand)
  | binary {op : BinaryOp} {left right : Expr} : Expr.Resolves grammar left →
      Expr.Resolves grammar right → Expr.Resolves grammar (.binary op left right)

/-- A phrase resolves if its trees do. -/
def Phrase.Resolves (grammar : Grammar) : Phrase → Prop
  | .expression tree | .term tree | .factor tree | .product tree | .power tree
  | .postfixed tree | .primary tree => tree.Resolves grammar
  | .arguments trees => ∀ tree ∈ trees, tree.Resolves grammar

/-- **Derived phrases resolve.** -/
theorem Derives.resolves {tokens : List Token} {phrase : Phrase}
    (h : Derives grammar tokens phrase) : phrase.Resolves grammar := by
  induction h with
  | ofTerm _ ih | ofFactor _ ih | ofProduct _ ih | ofPower _ ih | ofPostfixed _ ih
  | ofPrimary _ ih => exact ih
  | sum _ _ _ ihl ihr | quotient _ _ _ ihl ihr | juxtaposition _ _ ihl ihr
  | exponentiation _ _ _ ihl ihr => exact .binary ihl ihr
  | negation _ _ ih => exact .neg ih
  | factorial _ _ ih => exact .fact ih
  | number => exact .num
  | boundVariable _ hlookup => exact .var hlookup
  | group _ _ _ ih => exact ih
  | call _ hlookup _ _ _ hadmits ih => exact .call hlookup hadmits ih
  | noArguments => exact fun _ h => absurd h List.not_mem_nil
  | firstArgument _ ih => exact List.forall_mem_singleton.2 ih
  | nextArgument _ _ _ _ ihl ihr =>
    exact List.forall_mem_append.2 ⟨ihl, List.forall_mem_singleton.2 ihr⟩

/-! ## Evaluation -/

/-- The error is about the operand of a factorial. -/
def EvalError.IsFactorial (error : EvalError) : Prop :=
  ∃ value, error = .negativeFactorial value ∨ error = .nonIntegerFactorial value

/-- **An outcome of evaluation that tells whether calls fit**: a value only
if they do, a miscounted call only if they do not. A factorial may fail in
either case. -/
inductive EvalError.Tells {α : Type} (fits : Prop) : Except EvalError α → Prop
  | value {a : α} : fits → EvalError.Tells fits (.ok a)
  | miscounted {mismatch : ArityMismatch} : ¬ fits →
      EvalError.Tells fits (.error (.arityMismatch mismatch))
  | factorial {error : EvalError} : error.IsFactorial → EvalError.Tells fits (.error error)

namespace EvalError

variable {α β : Type} {fits fits' : Prop} {outcome : Except EvalError α}

/-- Two parts tell of both together. -/
theorem Tells.bind {f : α → Except EvalError β} (h : Tells fits outcome)
    (hf : ∀ a, outcome = .ok a → Tells fits' (f a)) :
    Tells (fits ∧ fits') (outcome.bind f) := by
  cases h with
  | @value a hfits =>
    have hnext := hf a rfl
    show Tells _ (f a)
    generalize f a = next at hnext ⊢
    cases hnext with
    | value hfits' => exact .value ⟨hfits, hfits'⟩
    | miscounted hfits' => exact .miscounted fun h => hfits' h.2
    | factorial herror => exact .factorial herror
  | miscounted hfits => exact .miscounted fun h => hfits h.1
  | factorial herror => exact .factorial herror

/-- A value changed on the way tells the same. -/
theorem Tells.map {f : α → β} (h : Tells fits outcome) : Tells fits (outcome.map f) := by
  cases h with
  | value hfits => exact .value hfits
  | miscounted hfits => exact .miscounted hfits
  | factorial herror => exact .factorial herror

/-- What is told is a matter of truth only. -/
theorem Tells.congr (h : Tells fits outcome) (hiff : fits ↔ fits') : Tells fits' outcome := by
  rwa [propext hiff] at h

end EvalError

/-- A factorial fails at its operand or not at all. -/
theorem factorial_tells (x : Float) : EvalError.Tells True (factorial x) := by
  unfold factorial
  split
  · exact .factorial ⟨x, .inr rfl⟩
  · split
    · exact .factorial ⟨x, .inl rfl⟩
    · exact .value trivial

/-- A call tells whether its arguments are as many as its function takes. -/
theorem Operation.callAs_tells (operation : Operation) (name : String) (arguments : List Float) :
    EvalError.Tells (arguments.length = operation.arity) (operation.callAs name arguments) := by
  unfold Operation.callAs Operation.call
  by_cases hlength : arguments.length = operation.arity
  · rw [if_pos hlength]
    exact .value hlength
  · rw [if_neg hlength]
    exact .miscounted hlength

/-- As many values as there are arguments. -/
theorem Expr.length_of_evalAll {arguments : List Expr} {values : List Float}
    (h : Expr.evalAll context arguments = .ok values) : values.length = arguments.length := by
  induction arguments generalizing values with
  | nil =>
    cases h
    rfl
  | cons first rest ih =>
    rw [Expr.evalAll] at h
    cases hfirst : first.eval context with
    | error error =>
      rw [hfirst] at h
      cases h
    | ok x =>
      rw [hfirst] at h
      cases hrest : Expr.evalAll context rest with
      | error error =>
        rw [hrest] at h
        cases h
      | ok xs =>
        rw [hrest] at h
        cases h
        rw [List.length_cons, List.length_cons, ih hrest]

/-- Arguments tell together what each of them does. -/
theorem Expr.evalAll_tells {arguments : List Expr} {Fits : Expr → Prop}
    (h : ∀ argument ∈ arguments, EvalError.Tells (Fits argument) (argument.eval context)) :
    EvalError.Tells (∀ argument ∈ arguments, Fits argument)
      (Expr.evalAll context arguments) := by
  induction arguments with
  | nil => exact .value fun _ h => absurd h List.not_mem_nil
  | cons first rest ih =>
    rw [List.forall_mem_cons] at h
    rw [Expr.evalAll]
    exact (h.1.bind fun x _ => (ih h.2).map).congr List.forall_mem_cons.symm

/-! ### What the parts of a resolved tree are -/

theorem Expr.resolves_call_iff {name : String} {operation : Operation} {arguments : List Expr}
    (hlookup : grammar.context.lookup name = some (.fn operation)) :
    (Expr.call name arguments).Resolves grammar ↔
      grammar.Admits operation arguments.length ∧
        ∀ argument ∈ arguments, argument.Resolves grammar := by
  constructor
  · rintro (_ | _ | ⟨hlookup', hadmits, harguments⟩)
    rw [hlookup] at hlookup'
    cases hlookup'
    exact ⟨hadmits, harguments⟩
  · exact fun ⟨hadmits, harguments⟩ => .call hlookup hadmits harguments

theorem Expr.resolves_neg_iff {operand : Expr} :
    (Expr.neg operand).Resolves grammar ↔ operand.Resolves grammar :=
  ⟨fun | .neg h => h, .neg⟩

theorem Expr.resolves_fact_iff {operand : Expr} :
    (Expr.fact operand).Resolves grammar ↔ operand.Resolves grammar :=
  ⟨fun | .fact h => h, .fact⟩

theorem Expr.resolves_binary_iff {op : BinaryOp} {left right : Expr} :
    (Expr.binary op left right).Resolves grammar ↔
      left.Resolves grammar ∧ right.Resolves grammar :=
  ⟨fun | .binary hl hr => ⟨hl, hr⟩, fun ⟨hl, hr⟩ => .binary hl hr⟩

/-- **Evaluation tells whether the calls of a tree fit**, once its names
stand for what it uses them as. -/
theorem Expr.Resolves.eval_tells (h : tree.Resolves context.laxGrammar) :
    EvalError.Tells (tree.Resolves context.grammar) (tree.eval context) := by
  induction h with
  | num => exact .value .num
  | @var name value hlookup =>
    change context.lookup name = some (.var value) at hlookup
    rw [Expr.eval, Context.variable?, hlookup]
    exact .value (.var hlookup)
  | @call name operation arguments hlookup _ _ ih =>
    change context.lookup name = some (.fn operation) at hlookup
    rw [Expr.eval, Context.function?, hlookup]
    have hcall (values : List Float) (hvalues : Expr.evalAll context arguments = .ok values) :
        EvalError.Tells (arguments.length = operation.arity) (operation.callAs name values) := by
      rw [← Expr.length_of_evalAll hvalues]
      exact operation.callAs_tells name values
    -- The arguments have their values before they are counted, so they tell first.
    refine ((Expr.evalAll_tells ih).bind hcall).congr ?_
    rw [Expr.resolves_call_iff hlookup]
    exact ⟨fun ⟨harguments, hlength⟩ => ⟨fun _ => hlength, harguments⟩,
      fun ⟨hadmits, harguments⟩ => ⟨harguments, hadmits rfl⟩⟩
  | neg _ ih =>
    rw [Expr.eval]
    exact ih.map.congr Expr.resolves_neg_iff.symm
  | fact _ ih =>
    rw [Expr.eval]
    refine (ih.bind fun x _ => factorial_tells x).congr ?_
    rw [and_true, Expr.resolves_fact_iff]
  | binary _ _ ihl ihr =>
    rw [Expr.eval]
    exact (ihl.bind fun x _ => ihr.map).congr Expr.resolves_binary_iff.symm

/-! ## What the parser lets through -/

/-- A parsed tree resolves. -/
theorem resolves_of_parse {source : String} (h : parse context source = .ok tree) :
    tree.Resolves context.grammar ∧ tree.Resolves context.laxGrammar := by
  obtain ⟨tokens, last, -, hcounted, hlax⟩ := exists_derives_of_parse h
  exact ⟨hcounted.resolves, hlax.resolves⟩

/-- **A parsed tree has a value or fails at a factorial.** -/
theorem eval_of_parse {source : String} (h : parse context source = .ok tree) :
    (∃ value, tree.eval context = .ok value) ∨
      ∃ error, tree.eval context = .error error ∧ error.IsFactorial := by
  obtain ⟨hcounted, hlax⟩ := resolves_of_parse h
  have htells := hlax.eval_tells
  generalize tree.eval context = outcome at htells ⊢
  cases htells with
  | value => exact .inl ⟨_, rfl⟩
  | miscounted hmiscounted => exact absurd hcounted hmiscounted
  | factorial herror => exact .inr ⟨_, rfl, herror⟩

/-- The error is lexical, one of syntax, or about a factorial. -/
def Error.IsSyntacticOrFactorial (error : Error) : Prop :=
  (∃ located, error = .lexical located) ∨ (∃ located, error = .syntactic located) ∨
    ∃ failure, error = .evaluation failure ∧ failure.IsFactorial

/-- A source fails to evaluate at its syntax or at a factorial. -/
theorem error_of_evaluate {source : String} {error : Error}
    (h : context.evaluate source = .error error) : error.IsSyntacticOrFactorial := by
  cases hparse : parse context source with
  | error located =>
    rw [Context.evaluate_of_parse_eq_error hparse] at h
    cases h
    obtain ⟨complaint, span⟩ := located
    cases complaint with
    | lexical lexError => exact .inl ⟨⟨lexError, span⟩, rfl⟩
    | _ => exact .inr (.inl ⟨_, rfl⟩)
  | ok tree =>
    rw [Context.evaluate_of_parse_eq_ok hparse] at h
    rcases eval_of_parse hparse with ⟨value, heval⟩ | ⟨failure, heval, hfactorial⟩
    · rw [heval] at h
      cases h
    · rw [heval] at h
      cases h
      exact .inr (.inr ⟨failure, rfl, hfactorial⟩)

/-- **What the parser validates, evaluation never rejects**: against the
context it was parsed in, a tree has a value or fails at a factorial. So a
source fails at its tokens, its syntax or a factorial, whatever the context
or the table. -/
theorem parsed_fails_only_at_factorials (source : String) :
    (∀ (context : Context) (tree : Expr), parse context source = .ok tree →
      (∃ value, tree.eval context = .ok value) ∨
        ∃ error, tree.eval context = .error error ∧ error.IsFactorial) ∧
    (∀ (context : Context) (error : Error), context.evaluate source = .error error →
      error.IsSyntacticOrFactorial) ∧
    ∀ (table : SymbolTable) (error : Error), table.evaluate source = .error error →
      error.IsSyntacticOrFactorial :=
  ⟨fun _ _ h => eval_of_parse h, fun _ _ h => error_of_evaluate h,
    fun _ _ h => error_of_evaluate h⟩

/-- The factorial of a call is let through, and a source cut short is not. -/
theorem parsed_call_fails_only_at_factorial :
    (parse (.sample 2.0) "f(x)!" = .ok (.fact (.call "f" [.var "x"])) ∧
      ((∃ value, (Expr.fact (.call "f" [.var "x"])).eval (.sample 2.0) = .ok value) ∨
        ∃ error, (Expr.fact (.call "f" [.var "x"])).eval (.sample 2.0) = .error error ∧
          error.IsFactorial)) ∧
    (∃ error, (Context.sample 2.0).evaluate "f(x" = .error error ∧
      error.IsSyntacticOrFactorial) ∧
    ∃ error, SymbolTable.empty.evaluate "-" = .error error ∧ error.IsSyntacticOrFactorial := by
  have hparse (value : Float) :
      parse (.sample value) "f(x)!" = .ok (.fact (.call "f" [.var "x"])) := by
    cbv
  have hcut (value : Float) : (Context.sample value).evaluate "f(x" =
      .error (.syntactic ⟨.unexpectedToken [.comma, .closeParen] .endOfInput, ⟨3, 3⟩⟩) := by
    cbv
  have hsign : SymbolTable.empty.evaluate "-" =
      .error (.syntactic ⟨.missingOperand .minus .endOfInput, ⟨1, 1⟩⟩) := by
    cbv
  exact ⟨⟨hparse 2.0, (parsed_fails_only_at_factorials "f(x)!").1 _ _ (hparse 2.0)⟩,
    ⟨_, hcut 2.0, (parsed_fails_only_at_factorials "f(x").2.1 _ _ (hcut 2.0)⟩,
    ⟨_, hsign, (parsed_fails_only_at_factorials "-").2.2 _ _ hsign⟩⟩

end Calculator
