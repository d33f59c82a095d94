import Calculator.Evaluation
import Calculator.Proofs.Grammar.Pairing
import Calculator.Proofs.Grammar.Parsing
/-!
# What is asked of a context

The parser asks a context about an identifier only where an operand begins with
it, and then for no more than its kind and its arity (`Machine.step_asks`). So a
context that keeps these of all names, and has others besides, leaves every source
as it was, unless one of the others is what the source lacked
(`parse_widens`). The evaluator asks for the names of its tree alone
(`Expr.eval_congr`).
-/

namespace Calculator

variable {context wider other : Context} {machine : Machine} {token : Token}

/-- **The wider context defines each name of the first** as something of the same
kind and arity, whatever its value or body. -/
def Context.Extends (context wider : Context) : Prop :=
  ∀ name meaning, context.lookup name = some meaning →
    ∃ meaning', wider.lookup name = some meaning' ∧ meaning'.kind = meaning.kind ∧
      meaning'.arity? = meaning.arity?

/-- It defines no further names. -/
def Context.AddsNothing (context wider : Context) : Prop :=
  ∀ name, context.lookup name = none → wider.lookup name = none

/-- The name is one that only the wider context defines. -/
def Context.Adds (context wider : Context) (name : String) : Prop :=
  context.lookup name = none ∧ wider.lookup name ≠ none

/-- **The outcome is the same in the wider context**, or it is that a name is
undefined which the wider context adds. -/
def Context.Widens {α : Type} (context wider : Context)
    (outcome outcome' : Except (Located SyntaxError) α) : Prop :=
  outcome' = outcome ∨ ∃ name span,
    outcome = .error ⟨.undefinedIdentifier name, span⟩ ∧ context.Adds wider name

/-! ## Steps -/

namespace Machine

/-- **A step asks a context about the token alone, and only where it begins an
operand with it.** -/
theorem step_asks (machine : Machine) (token : Token) :
    (∀ context other, machine.step context token = machine.step other token) ∨
      ∃ next : Machine, ∀ context,
        machine.step context token = next.beginOperand context token := by
  obtain ⟨levels, pending, phase⟩ := machine
  cases phase with
  | start =>
    by_cases hsign : token.kind = .minus
    · exact .inl fun context other => by simp only [step, stepStart, hsign]
    by_cases hcloses : token.kind = .closeParen ∧ ∃ name arity outer rest,
        levels = ⟨.call name arity [], outer⟩ :: rest
    · obtain ⟨hkind, name, arity, outer, rest, rfl⟩ := hcloses
      exact .inl fun context other => by simp only [step, stepStart, hkind]
    · refine .inr ⟨⟨levels, pending, .start⟩, fun context => ?_⟩
      simp only [step, stepStart]
      split
      · rename_i hkind
        exact absurd hkind hsign
      · rename_i hkind
        exact absurd ⟨hkind, _, _, _, _, rfl⟩ hcloses
      · rfl
  | operand operator signed =>
    by_cases hsign : token.kind = .minus ∧ signed
    · exact .inl fun context other => by simp only [step, stepOperand, if_pos hsign]
    · exact .inr ⟨_, fun context => if_neg hsign⟩
  | callee name arity => exact .inl fun _ _ => rfl
  | complete operand bare =>
    cases hkind : token.kind with
    | number | identifier | openParen =>
      exact .inr ⟨_, fun context => by simp only [step, stepComplete, hkind]; rfl⟩
    | _ => exact .inl fun context other => by simp only [step, stepComplete, hkind]

/-- **An operand is the same in a wider context**, unless it is a name that is added. -/
theorem widens_beginOperand (h : context.Extends wider) (machine : Machine) (token : Token) :
    context.Widens wider (machine.beginOperand context token)
      (machine.beginOperand wider token) := by
  unfold beginOperand
  by_cases hkind : token.kind = .identifier
  · rw [hkind]
    cases hmeaning : context.lookup token.text with
    | none =>
      by_cases hadds : wider.lookup token.text = none
      · rw [hadds]
        exact .inl rfl
      · exact .inr ⟨_, _, rfl, hmeaning, hadds⟩
    | some meaning =>
      obtain ⟨meaning', hmeaning', hsame, harity⟩ := h _ _ hmeaning
      rw [hmeaning']
      match meaning, meaning', hsame, harity with
      | .var _, .var _, _, _ => exact .inl rfl
      | .fn operation, .fn operation', _, harity =>
        dsimp only
        rw [Option.some.inj harity]
        exact .inl rfl
  · cases hkind' : token.kind with
    | identifier => exact absurd hkind' hkind
    | _ => exact .inl rfl

/-- **So is a step**, whatever the machine. -/
theorem widens_step (h : context.Extends wider) (machine : Machine) (token : Token) :
    context.Widens wider (machine.step context token) (machine.step wider token) := by
  rcases machine.step_asks token with hsame | ⟨next, hnext⟩
  · exact .inl (hsame wider context)
  · rw [hnext, hnext]
    exact widens_beginOperand h next token

end Machine

/-! ## Runs -/

/-- Two parts of a run that widen do so together. -/
theorem Context.Widens.bind {α β : Type} {outcome outcome' : Except (Located SyntaxError) α}
    {f : α → Except (Located SyntaxError) β} {f' : α → Except (Located SyntaxError) β}
    (h : context.Widens wider outcome outcome')
    (hf : ∀ a, context.Widens wider (f a) (f' a)) :
    context.Widens wider (outcome.bind f) (outcome'.bind f') := by
  rcases h with rfl | ⟨name, span, rfl, hadds⟩
  · cases outcome' with
    | error error => exact .inl rfl
    | ok a => exact hf a
  · exact .inr ⟨name, span, rfl, hadds⟩

/-- **A run over tokens is the same in a wider context**, up to the first name that
is added. -/
theorem Machine.widens_read (h : context.Extends wider) (machine : Machine)
    (tokens : List Token) :
    context.Widens wider (machine.read context tokens) (machine.read wider tokens) := by
  induction tokens generalizing machine with
  | nil => exact .inl rfl
  | cons token tokens ih =>
    rw [read_cons, read_cons]
    exact (widens_step h machine token).bind ih

/-- **And so is a parse**: what ends the tokens asks no context. -/
theorem parse_widens (h : context.Extends wider) (source : String) :
    context.Widens wider (parse context source) (parse wider source) := by
  rw [parse_eq_parseStream, parse_eq_parseStream]
  exact (Machine.widens_read h .start _).bind fun _ => .inl rfl

/-! ## Values -/

mutual

/-- The names of a tree, of variables as of functions. -/
def Expr.names : Expr → List String
  | .num _ => []
  | .var name => [name]
  | .call name arguments => name :: Expr.namesAll arguments
  | .neg operand | .fact operand => operand.names
  | .binary _ left right => left.names ++ right.names

/-- The names of several trees. -/
def Expr.namesAll : List Expr → List String
  | [] => []
  | first :: rest => first.names ++ Expr.namesAll rest

end

mutual

/-- **A tree has the same value, or the same error, in contexts that agree on its names.** -/
theorem Expr.eval_congr : (tree : Expr) →
    (∀ name ∈ tree.names, context.lookup name = other.lookup name) →
    tree.eval context = tree.eval other
  | .num _, _ => rfl
  | .var name, h => by
    rw [Expr.eval, Expr.eval, Context.variable?, Context.variable?,
      h name (List.mem_singleton_self name)]
  | .call name arguments, h => by
    obtain ⟨hname, harguments⟩ := List.forall_mem_cons.1 h
    rw [Expr.eval, Expr.eval, Context.function?, Context.function?, hname,
      Expr.evalAll_congr arguments harguments]
  | .neg operand, h => by
    rw [Expr.eval, Expr.eval, operand.eval_congr h]
  | .fact operand, h => by
    rw [Expr.eval, Expr.eval, operand.eval_congr h]
  | .binary op left right, h => by
    obtain ⟨hleft, hright⟩ := List.forall_mem_append.1 h
    rw [Expr.eval, Expr.eval, left.eval_congr hleft, right.eval_congr hright]

/-- So do several trees. -/
theorem Expr.evalAll_congr : (trees : List Expr) →
    (∀ name ∈ Expr.namesAll trees, context.lookup name = other.lookup name) →
    Expr.evalAll context trees = Expr.evalAll other trees
  | [], _ => rfl
  | first :: rest, h => by
    obtain ⟨hfirst, hrest⟩ := List.forall_mem_append.1 h
    rw [Expr.evalAll, Expr.evalAll, first.eval_congr hfirst, Expr.evalAll_congr rest hrest]

end

/-- **A context counts by the kinds and arities of its names only.** A wider one
gives every source what the first gives it, a tree or an error with its span, as long
as that is not a name it lacks, and in any case if no name is added. And a tree
has the same value in all contexts that agree on its names. -/
theorem parse_survives_extension (context wider : Context) :
    (context.Extends wider → ∀ source,
      (∀ name span, parse context source ≠ .error ⟨.undefinedIdentifier name, span⟩) →
      parse wider source = parse context source) ∧
    (context.Extends wider → context.AddsNothing wider →
      ∀ source, parse wider source = parse context source) ∧
    ∀ tree : Expr, (∀ name ∈ tree.names, context.lookup name = wider.lookup name) →
      tree.eval context = tree.eval wider := by
  refine ⟨fun h source hdefined => ?_, fun h hnothing source => ?_, fun tree => tree.eval_congr⟩
  · rcases parse_widens h source with heq | ⟨name, span, herror, -⟩
    · exact heq
    · exact absurd herror (hdefined name span)
  · rcases parse_widens h source with heq | ⟨name, span, -, hnone, hsome⟩
    · exact heq
    · exact absurd (hnothing name hnone) hsome

/-- The context with one more name, or another meaning of a name. -/
def Context.define (context : Context) (name : String) (meaning : Meaning) : Context where
  lookup other := if other = name then some meaning else context.lookup other

/-- Every other name is left as it was. -/
theorem Context.lookup_define {name other : String} (h : other ≠ name) (meaning : Meaning) :
    (context.define name meaning).lookup other = context.lookup other :=
  if_neg h

/-- So a name that is new extends a context. -/
theorem Context.extends_define {name : String} (h : context.lookup name = none)
    (meaning : Meaning) : context.Extends (context.define name meaning) := by
  intro other old hold
  have hne : other ≠ name := by
    rintro rfl
    rw [h] at hold
    cases hold
  exact ⟨old, (Context.lookup_define hne meaning).trans hold, rfl, rfl⟩

/-- A new variable leaves a call with an argument too many, another value of a
variable leaves the name that is missing, and neither is asked for by a tree
without it. -/
theorem extension_keeps_miscounted_call :
    parse ((Context.sample 2.0).define "y" (.var 1.0)) "f(x,x)" =
      .error ⟨.arityMismatch ⟨"f", 1, 2⟩, 0, 6⟩ ∧
    parse (.sample 3.0) "x+y" = .error ⟨.undefinedIdentifier "y", 2, 3⟩ ∧
    (Expr.neg (.var "x")).eval (.sample 2.0) =
      (Expr.neg (.var "x")).eval ((Context.sample 2.0).define "y" (.var 1.0)) := by
  have hcall (value : Float) :
      parse (.sample value) "f(x,x)" = .error ⟨.arityMismatch ⟨"f", 1, 2⟩, 0, 6⟩ := by cbv
  have hname (value : Float) :
      parse (.sample value) "x+y" = .error ⟨.undefinedIdentifier "y", 2, 3⟩ := by cbv
  have hvalues (value other : Float) : (Context.sample value).Extends (.sample other) := by
    intro name meaning h
    by_cases hx : name = "x"
    · subst hx
      cases h
      exact ⟨_, rfl, rfl, rfl⟩
    · simp only [Context.sample, if_neg hx] at h ⊢
      exact ⟨meaning, h, rfl, rfl⟩
  have hnothing (value other : Float) : (Context.sample value).AddsNothing (.sample other) := by
    intro name h
    by_cases hx : name = "x"
    · subst hx
      cases h
    · simp only [Context.sample, if_neg hx] at h ⊢
      exact h
  obtain ⟨hkept, -, hagree⟩ := parse_survives_extension (.sample 2.0)
    ((Context.sample 2.0).define "y" (.var 1.0))
  obtain ⟨-, hsame, -⟩ := parse_survives_extension (.sample 2.0) (.sample 3.0)
  refine ⟨?_, ?_, hagree _ ?_⟩
  · have hdefined : ∀ name span, parse (.sample 2.0) "f(x,x)" ≠
        .error ⟨.undefinedIdentifier name, span⟩ := by
      intro name span h
      rw [hcall] at h
      cases h
    rw [hkept (Context.extends_define rfl _) "f(x,x)" hdefined, hcall]
  · rw [hsame (hvalues 2.0 3.0) (hnothing 2.0 3.0), hname]
  · have hnames : (Expr.neg (.var "x")).names = ["x"] := rfl
    rw [hnames]
    exact List.forall_mem_singleton.2 (Context.lookup_define (by decide) _).symm

end Calculator
