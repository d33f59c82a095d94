import Calculator.Proofs.Grammar.Derivation
import Calculator.Proofs.Grammar.Run
/-!
# Phrases drive the machine

Fed the tokens of a phrase where such a phrase may stand, a machine reads
them all and ends with an operand that completes the tree of the phrase
(`Derives.follows`). A grammar that does not count arguments has sentences
that no machine reads; on those it stops at a miscounted call and nowhere
else (`Grammar.Allows`).
-/

namespace Calculator

variable {grammar : Grammar}

/-- **An outcome that the grammar allows** where it wants a good one: the
machine may stop at a call with a wrong number of arguments if they are not
counted. -/
inductive Grammar.Allows (grammar : Grammar) {α : Type} (good : α → Prop) :
    Except (Located SyntaxError) α → Prop
  | ok {a : α} : good a → Grammar.Allows grammar good (.ok a)
  | miscounted {mismatch : ArityMismatch} {span : Span} : grammar.counted = false →
      Grammar.Allows grammar good (.error ⟨.arityMismatch mismatch, span⟩)

/-- What follows a good outcome has to be allowed from there. -/
theorem Grammar.Allows.bind {α β : Type} {good : α → Prop} {good' : β → Prop}
    {outcome : Except (Located SyntaxError) α} {f : α → Except (Located SyntaxError) β}
    (h : grammar.Allows good outcome) (hf : ∀ a, good a → grammar.Allows good' (f a)) :
    grammar.Allows good' (outcome.bind f) := by
  cases h with
  | ok hgood => exact hf _ hgood
  | miscounted hcounted => exact .miscounted hcounted

/-- A weaker wish is granted as well. -/
theorem Grammar.Allows.mono {α : Type} {good good' : α → Prop}
    {outcome : Except (Located SyntaxError) α} (h : grammar.Allows good outcome)
    (himp : ∀ a, good a → good' a) : grammar.Allows good' outcome := by
  cases h with
  | ok hgood => exact .ok (himp _ hgood)
  | miscounted hcounted => exact .miscounted hcounted

/-! ## Where a phrase may stand -/

namespace Machine

/-- The next operand begins with these parts waiting for it. -/
inductive Awaits : Machine → Pending → Prop
  | start {levels : List Level} {pending : Pending} : Awaits ⟨levels, pending, .start⟩ pending
  | operand {levels : List Level} {pending : Pending} {operator : Kind} {signed : Bool} :
      Awaits ⟨levels, pending, .operand operator signed⟩ pending
  | complete {levels : List Level} {pending : Pending} {operand : Expr} {bare : Bool} :
      Awaits ⟨levels, pending, .complete operand bare⟩ (pending.juxtapose operand)

/-- The same, and a sign may precede the operand. -/
inductive AwaitsSign : Machine → Pending → Prop
  | start {levels : List Level} {pending : Pending} : AwaitsSign ⟨levels, pending, .start⟩ pending
  | operand {levels : List Level} {pending : Pending} {operator : Kind} :
      AwaitsSign ⟨levels, pending, .operand operator true⟩ pending

/-- An operand is complete, and it and what waits for it are as wished. -/
def Completes (levels : List Level) (good : Pending → Expr → Prop) (machine : Machine) : Prop :=
  ∃ pending operand bare, machine = ⟨levels, pending, .complete operand bare⟩ ∧ good pending operand

/-- A call is open, and its arguments so far are these. -/
inductive InCall (name : Token) (arity : Nat) (outer : Pending) (levels : List Level) :
    List Expr → Machine → Prop
  | opened : InCall name arity outer levels []
      ⟨⟨.call name arity [], outer⟩ :: levels, .start, .start⟩
  | complete {arguments : List Expr} {pending : Pending} {operand : Expr} {bare : Bool} :
      InCall name arity outer levels (arguments.reverse ++ [pending.expression operand])
        ⟨⟨.call name arity arguments, outer⟩ :: levels, pending, .complete operand bare⟩

variable {context : Context} {machine : Machine} {levels : List Level} {pending : Pending}
variable {token : Token} {operand : Expr} {bare : Bool}

/-- Where a sign may stand, so may an operand. -/
theorem AwaitsSign.awaits (h : machine.AwaitsSign pending) : machine.Awaits pending := by
  cases h with
  | start => exact .start
  | operand => exact .operand

/-! ## Single steps -/

/-- A token that begins an operand does so wherever one may stand. -/
theorem step_of_awaits (h : machine.Awaits pending) (hkind : token.kind.startsOperand) :
    machine.step context token =
      beginOperand context ⟨machine.levels, pending, machine.phase⟩ token := by
  cases h with
  | start =>
    simp only [step, stepStart]
    split <;> simp_all [Kind.startsOperand]
  | operand =>
    simp only [step, stepOperand]
    split <;> simp_all [Kind.startsOperand]
  | complete =>
    simp only [step, stepComplete]
    split <;> simp_all [Kind.startsOperand]

/-- A minus is a sign where one may stand. -/
theorem step_minus (h : machine.AwaitsSign pending) (hkind : token.kind = .minus) :
    machine.step context token =
      .ok ⟨machine.levels, pending.negate, .operand .minus false⟩ := by
  cases h with
  | start => simp [step, stepStart, hkind, takeSign]
  | operand => simp [step, stepOperand, hkind, takeSign]

/-- An operator of sums goes on with the expression so far. -/
theorem step_sum {op : BinaryOp} (hkind : (token.kind, op) ∈ sumOperators) :
    step context ⟨levels, pending, .complete operand bare⟩ token =
      .ok ⟨levels, pending.extendSum operand op, .operand token.kind true⟩ := by
  simp only [sumOperators, List.mem_cons, Prod.mk.injEq, List.not_mem_nil, or_false] at hkind
  rcases hkind with ⟨hkind, rfl⟩ | ⟨hkind, rfl⟩ <;>
    simp [step, stepComplete, stepComplete.continueWith, hkind]

/-- An operator of terms goes on with the term so far. -/
theorem step_term {op : BinaryOp} (hkind : (token.kind, op) ∈ termOperators) :
    step context ⟨levels, pending, .complete operand bare⟩ token =
      .ok ⟨levels, pending.extendTerm operand op, .operand token.kind true⟩ := by
  simp only [termOperators, List.mem_cons, Prod.mk.injEq, List.not_mem_nil, or_false] at hkind
  rcases hkind with ⟨hkind, rfl⟩ | ⟨hkind, rfl⟩ <;>
    simp [step, stepComplete, stepComplete.continueWith, hkind]

/-- A caret raises the operand to the next. -/
theorem step_caret (hkind : token.kind = .caret) :
    step context ⟨levels, pending, .complete operand bare⟩ token =
      .ok ⟨levels, pending.raise operand, .operand .caret false⟩ := by
  simp [step, stepComplete, hkind]

/-- A factorial is taken of a bare operand. -/
theorem step_bang (hkind : token.kind = .bang) :
    step context ⟨levels, pending, .complete operand true⟩ token =
      .ok ⟨levels, pending, .complete (.fact operand) false⟩ := by
  simp [step, stepComplete, hkind]

/-- A closing parenthesis ends a group. -/
theorem step_closeGroup {outer : Pending} (hkind : token.kind = .closeParen) :
    step context ⟨⟨.group, outer⟩ :: levels, pending, .complete operand bare⟩ token =
      .ok ⟨levels, outer, .complete (pending.expression operand) true⟩ := by
  simp [step, stepComplete, stepExpression, hkind]

/-- A comma ends an argument. -/
theorem step_comma {name : Token} {arity : Nat} {arguments : List Expr} {outer : Pending}
    (hkind : token.kind = .comma) :
    step context
        ⟨⟨.call name arity arguments, outer⟩ :: levels, pending, .complete operand bare⟩ token =
      .ok ⟨⟨.call name arity (pending.expression operand :: arguments), outer⟩ :: levels,
        .start, .start⟩ := by
  simp [step, stepComplete, stepExpression, hkind]

/-- **A closing parenthesis ends a call**, which counts the arguments. -/
theorem step_closeCall {name : Token} {arity : Nat} {arguments : List Expr} {outer : Pending}
    (h : InCall name arity outer levels arguments machine) (hkind : token.kind = .closeParen) :
    machine.step context token = endCall name arity arguments.reverse outer levels token := by
  cases h with
  | opened => simp [step, stepStart, hkind]
  | complete => simp [step, stepComplete, stepExpression, hkind]

/-! ## Runs over phrases -/

/-- **What a machine does over the tokens of a phrase**, wherever it may
stand: it ends with an operand that completes the tree, on the level of the
phrase, and what waits on looser levels goes on waiting. -/
def Follows (grammar : Grammar) (tokens : List Token) : Phrase → Prop
  | .expression tree => ∀ machine : Machine, machine.AwaitsSign .start →
      grammar.Allows (Completes machine.levels fun after operand => after.expression operand = tree)
        (machine.read grammar.context tokens)
  | .term tree => ∀ (machine : Machine) (sum : Option (Expr × BinaryOp)),
      machine.AwaitsSign ⟨sum, none, false, [], []⟩ →
      grammar.Allows (Completes machine.levels fun after operand =>
        after.sum = sum ∧ after.term operand = tree) (machine.read grammar.context tokens)
  | .factor tree => ∀ (machine : Machine) (sum quotient : Option (Expr × BinaryOp)),
      machine.AwaitsSign ⟨sum, quotient, false, [], []⟩ →
      grammar.Allows (Completes machine.levels fun after operand =>
        after.sum = sum ∧ after.quotient = quotient ∧ after.factor operand = tree)
        (machine.read grammar.context tokens)
  | .product tree => ∀ (machine : Machine) (pending : Pending), machine.Awaits pending →
      pending.bases = [] →
      grammar.Allows (Completes machine.levels fun after operand =>
        after.sum = pending.sum ∧ after.quotient = pending.quotient ∧
          after.negated = pending.negated ∧ after.product operand = pending.product tree)
        (machine.read grammar.context tokens)
  | .power tree => ∀ (machine : Machine) (pending : Pending), machine.Awaits pending →
      grammar.Allows (Completes machine.levels fun after operand =>
        after.sum = pending.sum ∧ after.quotient = pending.quotient ∧
          after.negated = pending.negated ∧ after.factors = pending.factors ∧
          after.power operand = pending.power tree)
        (machine.read grammar.context tokens)
  | .postfixed tree => ∀ (machine : Machine) (pending : Pending), machine.Awaits pending →
      grammar.Allows (Completes machine.levels fun after operand =>
        after = pending ∧ operand = tree) (machine.read grammar.context tokens)
  | .primary tree => ∀ (machine : Machine) (pending : Pending), machine.Awaits pending →
      grammar.Allows (· = ⟨machine.levels, pending, .complete tree true⟩)
        (machine.read grammar.context tokens)
  | .arguments trees => ∀ (name : Token) (arity : Nat) (outer : Pending) (levels : List Level),
      grammar.Allows (InCall name arity outer levels trees)
        (read grammar.context ⟨⟨.call name arity [], outer⟩ :: levels, .start, .start⟩ tokens)

variable {ts ls rs : List Token} {sign : Token} {e l r : Expr}

/-- A term is an expression: nothing waits to be added to it. -/
theorem Follows.ofTerm (h : Follows grammar ts (.term e)) : Follows grammar ts (.expression e) := by
  intro machine hawaits
  refine (h machine none hawaits).mono ?_
  rintro _ ⟨after, operand, bare, rfl, hsum, hterm⟩
  refine ⟨after, operand, bare, rfl, ?_⟩
  show after.expression operand = _
  rw [Pending.expression, hsum, hterm]
  rfl

/-- A sum is read operand by operand. -/
theorem Follows.sum {op : BinaryOp} (hl : Follows grammar ls (.expression l))
    (hsign : (sign.kind, op) ∈ sumOperators) (hr : Follows grammar rs (.term r)) :
    Follows grammar (ls ++ sign :: rs) (.expression (.binary op l r)) := by
  intro machine hawaits
  rw [read_append]
  refine (hl machine hawaits).bind ?_
  rintro _ ⟨pending, operand, bare, rfl, rfl⟩
  rw [read_cons, step_sum hsign]
  refine (hr _ _ .operand).mono ?_
  rintro _ ⟨after, operand', bare', rfl, hsum, hterm⟩
  refine ⟨after, operand', bare', rfl, ?_⟩
  show after.expression operand' = _
  rw [Pending.expression, hsum, hterm]
  rfl

/-- A factor is a term: nothing waits to be multiplied with it. -/
theorem Follows.ofFactor (h : Follows grammar ts (.factor e)) : Follows grammar ts (.term e) := by
  intro machine sum hawaits
  refine (h machine sum none hawaits).mono ?_
  rintro _ ⟨after, operand, bare, rfl, hsum, hquotient, hfactor⟩
  refine ⟨after, operand, bare, rfl, hsum, ?_⟩
  rw [Pending.term, hquotient, hfactor]
  rfl

/-- A quotient is read operand by operand too. -/
theorem Follows.quotient {op : BinaryOp} (hl : Follows grammar ls (.term l))
    (hsign : (sign.kind, op) ∈ termOperators) (hr : Follows grammar rs (.factor r)) :
    Follows grammar (ls ++ sign :: rs) (.term (.binary op l r)) := by
  intro machine sum hawaits
  rw [read_append]
  refine (hl machine sum hawaits).bind ?_
  rintro _ ⟨pending, operand, bare, rfl, rfl, rfl⟩
  rw [read_cons, step_term hsign]
  refine (hr _ _ _ .operand).mono ?_
  rintro _ ⟨after, operand', bare', rfl, hsum, hquotient, hfactor⟩
  refine ⟨after, operand', bare', rfl, hsum, ?_⟩
  rw [Pending.term, hquotient, hfactor]
  rfl

/-- A product without a sign is a factor. -/
theorem Follows.ofProduct (h : Follows grammar ts (.product e)) :
    Follows grammar ts (.factor e) := by
  intro machine sum quotient hawaits
  refine (h machine _ hawaits.awaits rfl).mono ?_
  rintro _ ⟨after, operand, bare, rfl, hsum, hquotient, hnegated, hproduct⟩
  refine ⟨after, operand, bare, rfl, hsum, hquotient, ?_⟩
  rw [Pending.factor, hnegated, hproduct]
  rfl

/-- And one with a sign. -/
theorem Follows.negation (hsign : sign.kind = .minus) (h : Follows grammar ts (.product e)) :
    Follows grammar (sign :: ts) (.factor (.neg e)) := by
  intro machine sum quotient hawaits
  rw [read_cons, step_minus hawaits hsign]
  refine (h _ _ .operand rfl).mono ?_
  rintro _ ⟨after, operand, bare, rfl, hsum, hquotient, hnegated, hproduct⟩
  refine ⟨after, operand, bare, rfl, hsum, hquotient, ?_⟩
  rw [Pending.factor, hnegated, hproduct]
  rfl

/-- A power is a product of one operand. -/
theorem Follows.ofPower (h : Follows grammar ts (.power e)) : Follows grammar ts (.product e) := by
  intro machine pending hawaits _
  refine (h machine pending hawaits).mono ?_
  rintro _ ⟨after, operand, bare, rfl, hsum, hquotient, hnegated, hfactors, hpower⟩
  refine ⟨after, operand, bare, rfl, hsum, hquotient, hnegated, ?_⟩
  rw [Pending.product, hfactors, hpower]
  rfl

/-- Juxtaposed operands are read one after the other. -/
theorem Follows.juxtaposition (hl : Follows grammar ls (.power l))
    (hr : Follows grammar rs (.product r)) :
    Follows grammar (ls ++ rs) (.product (.binary .mul l r)) := by
  intro machine pending hawaits hbases
  rw [read_append]
  refine (hl machine pending hawaits).bind ?_
  rintro _ ⟨next, operand, bare, rfl, hsum, hquotient, hnegated, hfactors, hpower⟩
  refine (hr _ _ .complete rfl).mono ?_
  rintro _ ⟨after, operand', bare', rfl, hsum', hquotient', hnegated', hproduct⟩
  refine ⟨after, operand', bare', rfl, hsum'.trans hsum, hquotient'.trans hquotient,
    hnegated'.trans hnegated, ?_⟩
  rw [hproduct]
  simp only [Pending.product, Pending.juxtapose, Pending.power, List.foldl_cons, List.foldl_nil,
    hfactors, hbases]
  rw [← Pending.power, hpower, Pending.power, hbases]
  rfl

/-- An operand is a power of itself. -/
theorem Follows.ofPostfixed (h : Follows grammar ts (.postfixed e)) :
    Follows grammar ts (.power e) := by
  intro machine pending hawaits
  refine (h machine pending hawaits).mono ?_
  rintro _ ⟨after, operand, bare, rfl, rfl, rfl⟩
  exact ⟨after, operand, bare, rfl, rfl, rfl, rfl, rfl, rfl⟩

/-- A power is read from its base on. -/
theorem Follows.exponentiation (hl : Follows grammar ls (.postfixed l))
    (hsign : sign.kind = .caret) (hr : Follows grammar rs (.power r)) :
    Follows grammar (ls ++ sign :: rs) (.power (.binary .pow l r)) := by
  intro machine pending hawaits
  rw [read_append]
  refine (hl machine pending hawaits).bind ?_
  rintro _ ⟨next, operand, bare, rfl, rfl, rfl⟩
  rw [read_cons, step_caret hsign]
  exact hr ⟨machine.levels, next.raise operand, _⟩ _ .operand

/-- A primary is an operand. -/
theorem Follows.ofPrimary (h : Follows grammar ts (.primary e)) :
    Follows grammar ts (.postfixed e) := by
  intro machine pending hawaits
  refine (h machine pending hawaits).mono ?_
  rintro _ rfl
  exact ⟨pending, e, true, rfl, rfl, rfl⟩

/-- And so is its factorial. -/
theorem Follows.factorial (h : Follows grammar ts (.primary e)) (hsign : sign.kind = .bang) :
    Follows grammar (ts ++ [sign]) (.postfixed (.fact e)) := by
  intro machine pending hawaits
  rw [read_append]
  refine (h machine pending hawaits).bind ?_
  rintro _ rfl
  rw [read_singleton, step_bang hsign]
  exact .ok ⟨pending, .fact e, false, rfl, rfl, rfl⟩

/-- A number is read in one step. -/
theorem Follows.number (hkind : token.kind = .number) :
    Follows grammar [token] (.primary (.num (Literal.valueOf token.text))) := by
  intro machine pending hawaits
  rw [read_singleton, step_of_awaits hawaits (by simp [hkind, Kind.startsOperand])]
  simp only [beginOperand, hkind]
  exact .ok rfl

/-- And so is a variable. -/
theorem Follows.boundVariable {value : Float} (hkind : token.kind = .identifier)
    (hlookup : grammar.context.lookup token.text = some (.var value)) :
    Follows grammar [token] (.primary (.var token.text)) := by
  intro machine pending hawaits
  rw [read_singleton, step_of_awaits hawaits (by simp [hkind, Kind.startsOperand])]
  simp only [beginOperand, hkind, hlookup]
  exact .ok rfl

/-- A group is read inside a level of its own. -/
theorem Follows.group {opening closing : Token} (hopening : opening.kind = .openParen)
    (h : Follows grammar ts (.expression e)) (hclosing : closing.kind = .closeParen) :
    Follows grammar (opening :: (ts ++ [closing])) (.primary e) := by
  intro machine pending hawaits
  rw [read_cons, step_of_awaits hawaits (by simp [hopening, Kind.startsOperand])]
  simp only [beginOperand, hopening]
  show grammar.Allows _ (read _ _ (ts ++ [closing]))
  rw [read_append]
  refine (h _ .start).bind ?_
  rintro _ ⟨after, operand, bare, rfl, rfl⟩
  rw [read_singleton, step_closeGroup hclosing]
  exact .ok rfl

/-- A call is opened, its arguments are read, and it is closed. -/
theorem read_call {context : Context} {name opening closing : Token} {operation : Operation}
    {machine : Machine} {pending : Pending} (hawaits : machine.Awaits pending)
    (hname : name.kind = .identifier) (hlookup : context.lookup name.text = some (.fn operation))
    (hopening : opening.kind = .openParen) :
    machine.read context (name :: opening :: (ts ++ [closing])) =
      (read context ⟨⟨.call name operation.arity [], pending⟩ :: machine.levels, .start, .start⟩
        ts).bind fun next => next.step context closing := by
  rw [read_cons, step_of_awaits hawaits (by simp [hname, Kind.startsOperand])]
  simp only [beginOperand, hname, hlookup]
  show read _ _ (opening :: (ts ++ [closing])) = _
  have hopen : step context ⟨machine.levels, pending, .callee name operation.arity⟩ opening =
      .ok ⟨⟨.call name operation.arity [], pending⟩ :: machine.levels, .start, .start⟩ := by
    simp [step, stepCallee, hopening]
  rw [read_cons, hopen]
  show read _ _ (ts ++ [closing]) = _
  rw [read_append]
  simp only [read_singleton]

/-- **A call is read up to its end**, where its arguments are counted. -/
theorem Follows.call {name opening closing : Token} {operation : Operation} {es : List Expr}
    (hname : name.kind = .identifier)
    (hlookup : grammar.context.lookup name.text = some (.fn operation))
    (hopening : opening.kind = .openParen) (h : Follows grammar ts (.arguments es))
    (hclosing : closing.kind = .closeParen) (hadmits : grammar.Admits operation es.length) :
    Follows grammar (name :: opening :: (ts ++ [closing])) (.primary (.call name.text es)) := by
  intro machine pending hawaits
  rw [read_call hawaits hname hlookup hopening]
  refine (h name operation.arity pending machine.levels).bind fun after hin => ?_
  rw [step_closeCall hin hclosing, endCall, List.length_reverse]
  split
  · rw [List.reverse_reverse]
    exact .ok rfl
  · rename_i hlength
    exact .miscounted (Bool.eq_false_iff.2 fun hcounted => hlength (hadmits hcounted))

/-- A call without arguments stays as it was opened. -/
theorem Follows.noArguments : Follows grammar [] (.arguments []) := by
  intro name arity outer levels
  exact .ok .opened

/-- The first argument is read as an expression. -/
theorem Follows.firstArgument (h : Follows grammar ts (.expression e)) :
    Follows grammar ts (.arguments [e]) := by
  intro name arity outer levels
  refine (h _ .start).mono ?_
  rintro _ ⟨after, operand, bare, rfl, rfl⟩
  exact @InCall.complete name arity outer levels [] after operand bare

/-- And so is each one after a comma. -/
theorem Follows.nextArgument {comma : Token} {es : List Expr}
    (hl : Follows grammar ls (.arguments es)) (hes : es ≠ []) (hcomma : comma.kind = .comma)
    (hr : Follows grammar rs (.expression e)) :
    Follows grammar (ls ++ comma :: rs) (.arguments (es ++ [e])) := by
  intro name arity outer levels
  rw [read_append]
  refine (hl name arity outer levels).bind ?_
  -- A comma may follow an argument only, so the call must not be as it was opened.
  rintro _ (_ | @⟨arguments, pending, operand, bare⟩)
  · exact absurd rfl hes
  rw [read_cons, step_comma hcomma]
  refine (hr _ .start).mono ?_
  rintro _ ⟨after, operand', bare', rfl, rfl⟩
  have := @InCall.complete name arity outer levels (pending.expression operand :: arguments)
    after operand' bare'
  rwa [List.reverse_cons] at this

end Machine

/-- **A machine reads every phrase**, wherever it may stand. -/
theorem Derives.follows {tokens : List Token} {phrase : Phrase}
    (h : Derives grammar tokens phrase) : Machine.Follows grammar tokens phrase := by
  -- On the derivation: what holds its parts together is where each may stand.
  induction h with
  | ofTerm _ ih => exact ih.ofTerm
  | sum _ hsign _ ihl ihr => exact ihl.sum hsign ihr
  | ofFactor _ ih => exact ih.ofFactor
  | quotient _ hsign _ ihl ihr => exact ihl.quotient hsign ihr
  | ofProduct _ ih => exact ih.ofProduct
  | negation hsign _ ih => exact ih.negation hsign
  | ofPower _ ih => exact ih.ofPower
  | juxtaposition _ _ ihl ihr => exact ihl.juxtaposition ihr
  | ofPostfixed _ ih => exact ih.ofPostfixed
  | exponentiation _ hsign _ ihl ihr => exact ihl.exponentiation hsign ihr
  | ofPrimary _ ih => exact ih.ofPrimary
  | factorial _ hsign ih => exact ih.factorial hsign
  | number hkind => exact .number hkind
  | boundVariable hkind hlookup => exact .boundVariable hkind hlookup
  | group hopening _ hclosing ih => exact .group hopening ih hclosing
  | call hname hlookup hopening _ hclosing hadmits ih =>
    exact .call hname hlookup hopening ih hclosing hadmits
  | noArguments => exact .noArguments
  | firstArgument _ ih => exact ih.firstArgument
  | nextArgument _ hes hcomma _ ihl ihr => exact ihl.nextArgument hes hcomma ihr

/-- **A sentence is read to its end**, where the machine completes its tree. -/
theorem Derives.finish {tokens : List Token} {tree : Expr} (last : Token)
    (h : Derives grammar tokens (.expression tree)) :
    grammar.Allows (· = tree)
      ((Machine.start.read grammar.context tokens).bind fun machine => machine.finish last) := by
  refine (h.follows Machine.start .start).bind ?_
  rintro _ ⟨after, operand, bare, rfl, rfl⟩
  exact .ok rfl

end Calculator
