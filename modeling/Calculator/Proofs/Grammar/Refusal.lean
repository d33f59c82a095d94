import Calculator.Proofs.Grammar.Completion
import Calculator.Proofs.Grammar.Parsing
/-!
# Where a syntax error is

A run stops at the first step that fails, and a step fails in one of three
ways (`Machine.Fails`): the token cannot come next, it is a name of nothing,
or it ends a call with a wrong number of arguments. What was read before it
can always be completed and has passed every check (`checked_of_read`), and
no sentence goes on with a token that was refused
(`not_completable_of_refused`). So a syntax error is reported at the first
token that can continue no expression (`Blames`).
-/

namespace Calculator

variable {context : Context} {grammar : Grammar} {us vs : List Token} {token : Token}

/-! ## How a step fails -/

/-- The error says of one token that it cannot come next. -/
def SyntaxError.IsRefusal : SyntaxError → Prop
  | .unexpectedEnd | .unexpectedToken _ _ | .missingOperand _ _ | .trailingInput _ => True
  | .lexical _ | .undefinedIdentifier _ | .arityMismatch _ => False

namespace Machine

variable {machine after : Machine} {error : Located SyntaxError}

/-- **The ways a step can fail.** -/
inductive Fails (context : Context) (machine : Machine) (token : Token) :
    Located SyntaxError → Prop
  | refused {complaint : SyntaxError} : complaint.IsRefusal →
      Fails context machine token ⟨complaint, token.span⟩
  | undefined : token.kind = .identifier → context.lookup token.text = none →
      Fails context machine token ⟨.undefinedIdentifier token.text, token.span⟩
  | miscounted {name : Token} {arity : Nat} {outer : Pending} {levels : List Level}
      {arguments : List Expr} : InCall name arity outer levels arguments machine →
      token.kind = .closeParen → arguments.length ≠ arity →
      Fails context machine token
        ⟨.arityMismatch ⟨name.text, arity, arguments.length⟩, name.start, token.stop⟩

/-- What a refusal says is of the token alone. -/
theorem complaint_isRefusal (machine : Machine) (token : Token) :
    (machine.complaint token).IsRefusal := by
  unfold complaint
  split
  · split <;> trivial
  · trivial
  · trivial
  · split <;> trivial

/-- A refusal fails the step it is made in, whatever the machine was by then. -/
theorem fails_of_refuse {α : Type} {other : Machine}
    (h : (other.refuse token : Except (Located SyntaxError) α) = .error error) :
    machine.Fails context token error := by
  cases h
  exact .refused (other.complaint_isRefusal token)

theorem fails_of_beginOperand {other : Machine}
    (h : other.beginOperand context token = .error error) : machine.Fails context token error := by
  unfold beginOperand at h
  split at h
  · cases h
  · rename_i hkind
    split at h
    · rename_i hlookup
      cases h
      exact .undefined hkind hlookup
    · cases h
    · cases h
  · cases h
  · exact fails_of_refuse h

/-- The end of a call fails where the arguments are too few or too many. -/
theorem fails_of_endCall {name : Token} {arity : Nat} {outer : Pending} {levels : List Level}
    {arguments : List Expr} (hin : InCall name arity outer levels arguments.reverse machine)
    (hkind : token.kind = .closeParen)
    (h : endCall name arity arguments outer levels token = .error error) :
    machine.Fails context token error := by
  unfold endCall at h
  split at h
  · cases h
  · rename_i hlength
    cases h
    rw [← List.length_reverse] at hlength ⊢
    exact .miscounted hin hkind hlength

/-- A step where an expression begins fails as its token does, unless it
ends a call without arguments. -/
theorem fails_of_stepStart {levels : List Level}
    (h : stepStart context ⟨levels, .start, .start⟩ token = .error error) :
    Fails context ⟨levels, .start, .start⟩ token error := by
  unfold stepStart at h
  split at h
  · cases h
  · rename_i name arity outer levels' hkind hcall
    dsimp only at hcall
    subst hcall
    refine fails_of_endCall ?_ hkind h
    rw [List.reverse_nil]
    exact .opened
  · exact fails_of_beginOperand h

/-- After a whole expression, the parenthesis that ends a call may fail, and
any other token that cannot come next is refused. -/
theorem fails_of_stepExpression {levels : List Level} {pending : Pending} {operand : Expr}
    {bare : Bool}
    (h : stepExpression ⟨levels, pending, .complete operand bare⟩ (pending.expression operand)
      token = .error error) :
    Fails context ⟨levels, pending, .complete operand bare⟩ token error := by
  unfold stepExpression at h
  split at h
  · cases h
  · rename_i name arity arguments outer levels' hkind hcall
    dsimp only at hcall
    subst hcall
    refine fails_of_endCall ?_ hkind h
    rw [List.reverse_cons]
    exact .complete
  · cases h
  · exact fails_of_refuse h

/-- **A step fails in one of these ways.** -/
theorem fails_of_step (hsuits : machine.phase.Suits machine.pending)
    (h : machine.step context token = .error error) : machine.Fails context token error := by
  obtain ⟨levels, pending, phase⟩ := machine
  cases phase with
  | start =>
    obtain rfl : pending = .start := hsuits
    exact fails_of_stepStart h
  | operand operator signed =>
    simp only [step, stepOperand] at h
    split at h
    · cases h
    · exact fails_of_beginOperand h
  | callee name arity =>
    simp only [step, stepCallee] at h
    split at h
    · cases h
    · exact fails_of_refuse h
  | complete operand bare =>
    simp only [step, stepComplete] at h
    -- Operators are never refused, and a token that begins an operand is read as one.
    split at h
    · split at h
      · cases h
      · exact fails_of_refuse h
    · cases h
    · cases h
    · cases h
    · cases h
    · cases h
    · exact fails_of_beginOperand h
    · exact fails_of_beginOperand h
    · exact fails_of_beginOperand h
    · exact fails_of_stepExpression h

/-- A run that fails passes through a machine before the token it fails at. -/
theorem exists_step_of_read_eq_error (h : machine.read context us = .error error) :
    ∃ before token rest next, us = before ++ token :: rest ∧
      machine.read context before = .ok next ∧ next.step context token = .error error := by
  induction us generalizing machine with
  | nil => cases h
  | cons first us ih =>
    rw [read_cons] at h
    cases hstep : machine.step context first with
    | error error' =>
      rw [hstep] at h
      cases h
      exact ⟨[], first, us, machine, rfl, rfl, hstep⟩
    | ok next =>
      rw [hstep] at h
      obtain ⟨before, token, rest, last, rfl, hread, hlast⟩ := ih h
      exact ⟨first :: before, token, rest, last, rfl, read_cons_eq_ok.2 ⟨next, hstep, hread⟩, hlast⟩

end Machine

/-- **The ways the tokens of a source can be no expression**: one of them is not
read, the end of the input comes too early, or something is no token. -/
inductive Stops (context : Context) (stream : TokenStream) : Located SyntaxError → Prop
  | token {before rest : List Token} {token : Token} {machine : Machine}
      {error : Located SyntaxError} : stream.tokens = before ++ token :: rest →
      Machine.start.read context before = .ok machine →
      machine.step context token = .error error → Stops context stream error
  | ending {last : Token} {machine : Machine} {error : Located SyntaxError} :
      stream.ending = .ok last → Machine.start.read context stream.tokens = .ok machine →
      machine.finish last = .error error → Stops context stream error
  | lexical {error : Located LexError} {machine : Machine} : stream.ending = .error error →
      Machine.start.read context stream.tokens = .ok machine →
      Stops context stream (error.map .lexical)

/-- **A source that does not parse stops in one of these ways.** -/
theorem stops_of_parse {source : String} {error : Located SyntaxError}
    (h : parse context source = .error error) : Stops context (.ofString source) error := by
  rw [parse_eq_parseStream, parseStream, Machine.runStream, ← Machine.read] at h
  generalize TokenStream.ofString source = stream at h ⊢
  obtain ⟨tokens, ending⟩ := stream
  cases hread : Machine.start.read context tokens with
  | error error' =>
    rw [hread] at h
    cases h
    obtain ⟨before, token, rest, machine, rfl, hbefore, hstep⟩ :=
      Machine.exists_step_of_read_eq_error hread
    exact .token rfl hbefore hstep
  | ok machine =>
    rw [hread] at h
    cases ending with
    | error error' =>
      cases h
      exact .lexical rfl hread
    | ok last => exact .ending rfl hread h

namespace Machine

variable {machine after : Machine}

/-! ## Names and calls that were read -/

/-- A machine waits for an operand, or for the arguments of a function. -/
theorem awaits_or_callee (machine : Machine) :
    (∃ pending, machine.Awaits pending) ∨ ∃ name arity, machine.phase = .callee name arity := by
  obtain ⟨levels, pending, phase⟩ := machine
  cases phase with
  | start => exact .inl ⟨_, .start⟩
  | operand => exact .inl ⟨_, .operand⟩
  | callee name arity => exact .inr ⟨name, arity, rfl⟩
  | complete => exact .inl ⟨_, .complete⟩

/-- **A name that is read is defined**, and its arguments are due if it is a
function. -/
theorem lookup_of_step (hkind : token.kind = .identifier)
    (h : machine.step context token = .ok after) :
    context.lookup token.text ≠ none ∧
      ∀ operation, context.lookup token.text = some (.fn operation) →
        after.phase = .callee token operation.arity := by
  rcases machine.awaits_or_callee with ⟨pending, hawaits⟩ | ⟨name, arity, hcallee⟩
  · rw [step_of_awaits hawaits (by simp [hkind, Kind.startsOperand])] at h
    simp only [beginOperand, hkind] at h
    split at h
    · cases h
    · rename_i hlookup
      refine ⟨by simp [hlookup], fun operation hfn => ?_⟩
      rw [hlookup] at hfn
      cases hfn
    · rename_i hlookup
      refine ⟨by simp [hlookup], fun operation hfn => ?_⟩
      rw [hlookup] at hfn
      cases hfn
      cases h
      rfl
  · simp [step, hcallee, stepCallee, hkind] at h

end Machine

/-- **The tokens are a call**, from the name of its function to the
parenthesis that closes it, with this many arguments. -/
inductive IsCall (context : Context) (name closing : Token) (operation : Operation) :
    Nat → List Token → Prop
  | intro {opening : Token} {ts : List Token} {arguments : List Expr} :
      name.kind = .identifier → context.lookup name.text = some (.fn operation) →
      opening.kind = .openParen → Derives context.laxGrammar ts (.arguments arguments) →
      closing.kind = .closeParen →
      IsCall context name closing operation arguments.length
        (name :: opening :: (ts ++ [closing]))

/-- **Nothing is wrong with the names of these tokens**: each stands for
something, and each call that they close has the right number of arguments. -/
structure Checked (context : Context) (tokens : List Token) : Prop where
  defined : ∀ token ∈ tokens, token.kind = .identifier → context.lookup token.text ≠ none
  counted : ∀ before call after name closing operation count,
    tokens = before ++ (call ++ after) → IsCall context name closing operation count call →
    count = operation.arity

/-- A call that is read has the right number of arguments. -/
theorem IsCall.count_eq {machine after : Machine} {name closing : Token} {operation : Operation}
    {count : Nat} (h : IsCall context name closing operation count us)
    (hread : machine.read context us = .ok after) : count = operation.arity := by
  obtain ⟨hname, hlookup, hopening, harguments, hclosing⟩ := h
  obtain ⟨called, hstep, hread⟩ := Machine.read_cons_eq_ok.1 hread
  obtain ⟨opened, hopen, hread⟩ := Machine.read_cons_eq_ok.1 hread
  obtain ⟨last, hread, hclose⟩ := Machine.read_append_eq_ok.1 hread
  have hphase := (Machine.lookup_of_step hname hstep).2 operation hlookup
  simp only [Machine.step, hphase, Machine.stepCallee, hopening, if_true] at hopen
  cases hopen
  -- From here on the machine does what it does over any arguments.
  have hfollows := harguments.follows name operation.arity called.pending called.levels
  change context.laxGrammar.Allows _ (Machine.read context _ _) at hfollows
  rw [hread] at hfollows
  cases hfollows with
  | ok hin =>
    rw [Machine.read_singleton, Machine.step_closeCall hin hclosing] at hclose
    have hlength := (Machine.endCall_eq_ok hclose).1
    rwa [List.length_reverse] at hlength

/-- **What was read has passed every check.** -/
theorem checked_of_read {machine after : Machine} (h : machine.read context us = .ok after) :
    Checked context us := by
  constructor
  · intro token htoken hkind
    obtain ⟨before, rest, rfl⟩ := List.append_of_mem htoken
    obtain ⟨next, -, hread⟩ := Machine.read_append_eq_ok.1 h
    obtain ⟨last, hstep, -⟩ := Machine.read_cons_eq_ok.1 hread
    exact (Machine.lookup_of_step hkind hstep).1
  · intro before call rest name closing operation count heq hcall
    subst heq
    obtain ⟨next, -, hread⟩ := Machine.read_append_eq_ok.1 h
    obtain ⟨last, hread, -⟩ := Machine.read_append_eq_ok.1 hread
    exact hcall.count_eq hread

/-! ## What is reported -/

/-- **What an error reports of a token**, with what was read before it and
what is left after it. A token is refused where no sentence goes on with it,
the last one where what was read is no sentence. -/
inductive Blames (context : Context) (before : List Token) (token : Token) (after : List Token) :
    Located SyntaxError → Prop
  | refused {complaint : SyntaxError} : complaint.IsRefusal → Completable context before →
      (after ≠ [] → ¬ Completable context (before ++ [token])) →
      (after = [] → ¬ ∃ tree, Derives context.laxGrammar before (.expression tree)) →
      Blames context before token after ⟨complaint, token.span⟩
  | undefined : token.kind = .identifier → context.lookup token.text = none →
      Completable context before →
      Blames context before token after ⟨.undefinedIdentifier token.text, token.span⟩
  | miscounted {outer call : List Token} {name : Token} {operation : Operation} {count : Nat} :
      before ++ [token] = outer ++ call → IsCall context name token operation count call →
      count ≠ operation.arity → Completable context (before ++ [token]) →
      Blames context before token after
        ⟨.arityMismatch ⟨name.text, operation.arity, count⟩, name.start, token.stop⟩

/-- Where a call may end, its name and its arguments were read last. -/
theorem Machine.InCall.exists_arguments {machine : Machine} {name : Token} {arity : Nat}
    {outer : Pending} {levels : List Level} {arguments : List Expr}
    (hin : InCall name arity outer levels arguments machine) (h : machine.Spells grammar us) :
    ∃ operation opening vs ws xs, us = vs ++ (ws ++ name :: opening :: xs) ∧
      arity = operation.arity ∧ LevelsSpell grammar levels vs ∧ outer.Spells grammar ws ∧
      name.kind = .identifier ∧ grammar.context.lookup name.text = some (.fn operation) ∧
      opening.kind = .openParen ∧ Derives grammar xs (.arguments arguments) := by
  obtain ⟨hlevels, hpending, hphase, -⟩ := h
  cases hin with
  | opened =>
    rcases hlevels with _ | _ | ⟨hlevels, houter, hname, hlookup, hopening, harguments⟩
    cases harguments
    cases hphase
    have hnil := hpending.eq_nil_of_start
    subst hnil
    refine ⟨_, _, _, _, [], ?_, rfl, hlevels, houter, hname, hlookup, hopening, .noArguments⟩
    rw [List.append_nil, List.append_nil]
  | @complete arguments pending operand bare =>
    rcases hlevels with _ | _ | ⟨hlevels, houter, hname, hlookup, hopening, harguments⟩
    have hall := harguments.last (hpending.expression hphase.derives)
    rw [List.reverse_cons] at hall
    refine ⟨_, _, _, _, _, ?_, rfl, hlevels, houter, hname, hlookup, hopening, hall⟩
    simp only [List.append_assoc, List.cons_append]

/-- **Refused tokens are no sentence**: a machine reads every sentence, or
stops at a call, which is no refusal. -/
theorem not_derives_of_refused {complaint : SyntaxError} {span : Span} {tree : Expr} (last : Token)
    (hrefusal : complaint.IsRefusal)
    (h : ((Machine.start.read context us).bind fun machine => machine.finish last) =
      .error ⟨complaint, span⟩) :
    ¬ Derives context.laxGrammar us (.expression tree) := by
  intro hderives
  have hallows : context.laxGrammar.Allows (· = tree)
      ((Machine.start.read context us).bind fun machine => machine.finish last) :=
    hderives.finish last
  rw [h] at hallows
  cases hallows with
  | miscounted => exact hrefusal

/-- And no sentence begins with them. -/
theorem not_completable_of_refused {complaint : SyntaxError} {span : Span}
    (hrefusal : complaint.IsRefusal)
    (h : Machine.start.read context us = .error ⟨complaint, span⟩) :
    ¬ Completable context us := by
  rintro ⟨rest, tree, hderives⟩
  have hrun (last : Token) :
      ((Machine.start.read context (us ++ rest)).bind fun machine => machine.finish last) =
        .error ⟨complaint, span⟩ := by
    rw [Machine.read_append_eq_error h]
    rfl
  exact not_derives_of_refused ⟨.endOfInput, 0, ""⟩ hrefusal (hrun _) hderives

/-- **A failed step is blamed on its token.** -/
theorem Machine.Fails.blames {machine : Machine} {error : Located SyntaxError} {rest : List Token}
    (h : machine.Fails context token error) (hspells : machine.Spells context.laxGrammar us)
    (hfails : Machine.start.read context (us ++ [token]) = .error error) (hrest : rest ≠ []) :
    Blames context us token rest error := by
  cases h with
  | refused hrefusal =>
    exact .refused hrefusal hspells.completable
      (fun _ => not_completable_of_refused hrefusal hfails) fun hnil => absurd hnil hrest
  | undefined hkind hlookup => exact .undefined hkind hlookup hspells.completable
  | @miscounted name arity outer levels arguments hin hkind hlength =>
    obtain ⟨operation, opening, vs, ws, xs, rfl, rfl, hlevels, houter, hname, hlookup, hopening,
      harguments⟩ := hin.exists_arguments hspells
    have hcall : IsCall context name token operation arguments.length
        (name :: opening :: (xs ++ [token])) :=
      .intro hname hlookup hopening harguments hkind
    -- The call may have any number of arguments, so it is an operand and can be completed.
    have hprimary : Derives context.laxGrammar (name :: opening :: (xs ++ [token]))
        (.primary (.call name.text arguments)) :=
      .call hname hlookup hopening harguments hkind (context.laxGrammar_admits _ _)
    have hcompletable := hlevels.completable (houter.expression (.ofPrimary hprimary))
    have hread : vs ++ (ws ++ name :: opening :: xs) ++ [token] =
        (vs ++ ws) ++ name :: opening :: (xs ++ [token]) := by
      simp only [List.append_assoc, List.cons_append]
    refine .miscounted hread hcall hlength ?_
    rw [hread, List.append_assoc]
    exact hcompletable

/-- **An end of the input that comes too early is blamed on it.** -/
theorem blames_of_finish {machine : Machine} {error : Located SyntaxError}
    (hread : Machine.start.read context us = .ok machine)
    (h : machine.finish token = .error error) : Blames context us token [] error := by
  have hspells : machine.Spells context.laxGrammar us := Machine.spells_of_read hread
  have hrefuse : (machine.refuse token : Except (Located SyntaxError) Expr) = .error error := by
    unfold Machine.finish at h
    split at h
    · cases h
    · exact h
  cases hrefuse
  have hrefusal := machine.complaint_isRefusal token
  refine .refused hrefusal hspells.completable (fun hne => absurd rfl hne) fun _ => ?_
  have hrun : ((Machine.start.read context us).bind fun machine => machine.finish token) =
      .error ⟨machine.complaint token, token.span⟩ := by
    rw [hread]
    exact h
  exact fun ⟨tree, hderives⟩ => not_derives_of_refused token hrefusal hrun hderives

/-- **A syntax error is reported at the first token that can continue no
expression**, or at the first name or call that does not check. Everything
before that token has passed. -/
theorem syntax_error_at_first_wrong_token (context : Context) (source : String)
    (all : List Token) (error : Located SyntaxError) (htokens : tokenize source = .ok all)
    (h : parse context source = .error error) :
    ∃ before token after, all = before ++ token :: after ∧ Checked context before ∧
      Blames context before token after error := by
  obtain ⟨tokens, last, rfl, -, -, hparse⟩ := parse_eq_of_tokenize htokens
  rw [hparse] at h
  cases hread : Machine.start.read context tokens with
  | error error' =>
    rw [hread] at h
    cases h
    obtain ⟨before, token, rest, machine, rfl, hbefore, hstep⟩ :=
      Machine.exists_step_of_read_eq_error hread
    have hspells : machine.Spells context.laxGrammar before := Machine.spells_of_read hbefore
    have hfails : Machine.start.read context (before ++ [token]) = .error error := by
      rw [Machine.read_append, hbefore]
      show machine.read context [token] = _
      rw [Machine.read_singleton, hstep]
    refine ⟨before, token, rest ++ [last], ?_, checked_of_read hbefore, ?_⟩
    · rw [List.append_assoc, List.cons_append]
    · exact (Machine.fails_of_step hspells.suits hstep).blames hspells hfails (by simp)
  | ok machine =>
    rw [hread] at h
    exact ⟨tokens, last, [], rfl, checked_of_read hread, blames_of_finish hread h⟩

/-- A call without its argument is reported where it ends, after one that has
it. A parenthesis that no operand can begin with is reported by itself. -/
theorem parse_reports_call_and_parenthesis :
    (∃ all error, tokenize "f(x)f()" = .ok all ∧ parse (.sample 2.0) "f(x)f()" = .error error ∧
      error = ⟨.arityMismatch ⟨"f", 1, 0⟩, 4, 7⟩ ∧
      ∃ before token after, all = before ++ token :: after ∧
        Checked (.sample 2.0) before ∧ Blames (.sample 2.0) before token after error) ∧
    ∃ all error, tokenize "x+)x" = .ok all ∧ parse (.sample 2.0) "x+)x" = .error error ∧
      error = ⟨.missingOperand .plus .closeParen, 2, 3⟩ ∧
      ∃ before token after, all = before ++ token :: after ∧
        Checked (.sample 2.0) before ∧ Blames (.sample 2.0) before token after error := by
  have hcalls : tokenize "f(x)f()" = .ok
      [⟨.identifier, 0, "f"⟩, ⟨.openParen, 1, "("⟩, ⟨.identifier, 2, "x"⟩, ⟨.closeParen, 3, ")"⟩,
        ⟨.identifier, 4, "f"⟩, ⟨.openParen, 5, "("⟩, ⟨.closeParen, 6, ")"⟩,
        ⟨.endOfInput, 7, ""⟩] := by
    cbv
  have hmiscounted (value : Float) : parse (.sample value) "f(x)f()" =
      .error ⟨.arityMismatch ⟨"f", 1, 0⟩, 4, 7⟩ := by
    cbv
  have hsum : tokenize "x+)x" = .ok
      [⟨.identifier, 0, "x"⟩, ⟨.plus, 1, "+"⟩, ⟨.closeParen, 2, ")"⟩, ⟨.identifier, 3, "x"⟩,
        ⟨.endOfInput, 4, ""⟩] := by
    cbv
  have hrefused (value : Float) : parse (.sample value) "x+)x" =
      .error ⟨.missingOperand .plus .closeParen, 2, 3⟩ := by
    cbv
  exact ⟨⟨_, _, hcalls, hmiscounted 2.0, rfl,
      syntax_error_at_first_wrong_token _ _ _ _ hcalls (hmiscounted 2.0)⟩,
    ⟨_, _, hsum, hrefused 2.0, rfl,
      syntax_error_at_first_wrong_token _ _ _ _ hsum (hrefused 2.0)⟩⟩

end Calculator
