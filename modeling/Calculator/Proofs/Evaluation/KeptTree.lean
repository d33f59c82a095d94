import Calculator.Proofs.Evaluation.Resolution
import Calculator.Proofs.Symbol.Update
/-!
# Kept trees

A tree may be kept while the table it was parsed with is updated. Its names
go on standing for what it uses them as, since updates keep kinds
(`Expr.Resolves.transfer`); only the arities of its functions may have
changed. So its source still has its tokens derive it, as long as arguments
are not counted (`Derives.transfer`), and parses as it again if its calls
still fit (`parse_of_keepsKinds`). If they do not, both the source and the
tree are refused, each at a place of its own.
-/

namespace Calculator

/-! ## The calls of a tree -/

mutual

/-- The calls of a tree, each as its name and the number of its arguments. -/
def Expr.calls : Expr → List (String × Nat)
  | .num _ | .var _ => []
  | .call name arguments => (name, arguments.length) :: Expr.callsAll arguments
  | .neg operand | .fact operand => operand.calls
  | .binary _ left right => left.calls ++ right.calls

/-- The calls of several trees. -/
def Expr.callsAll : List Expr → List (String × Nat)
  | [] => []
  | first :: rest => first.calls ++ Expr.callsAll rest

end

/-- **Each call has as many arguments as its function takes.** -/
def Expr.CallsFit (context : Context) (tree : Expr) : Prop :=
  ∀ name count, (name, count) ∈ tree.calls →
    ∀ operation, context.lookup name = some (.fn operation) → count = operation.arity

/-- The calls of several trees are those of each. -/
theorem Expr.mem_callsAll {call : String × Nat} {trees : List Expr} :
    call ∈ Expr.callsAll trees ↔ ∃ tree ∈ trees, call ∈ tree.calls := by
  induction trees with
  | nil => simp [Expr.callsAll]
  | cons first rest ih =>
    rw [Expr.callsAll, List.mem_append, ih]
    simp only [List.mem_cons, exists_eq_or_imp]

section

variable {context : Context} {grammar grammar' : Grammar} {tree : Expr}

/-- Calls of a call fit if it does and those of its arguments do. -/
theorem Expr.callsFit_call_iff {name : String} {operation : Operation} {arguments : List Expr}
    (hlookup : context.lookup name = some (.fn operation)) :
    (Expr.call name arguments).CallsFit context ↔
      arguments.length = operation.arity ∧
        ∀ argument ∈ arguments, argument.CallsFit context := by
  constructor
  · intro hfit
    refine ⟨hfit name _ ?_ operation hlookup, fun argument hargument name' count hcall => ?_⟩
    · rw [Expr.calls]
      exact List.mem_cons_self
    · refine hfit name' count ?_
      rw [Expr.calls]
      exact List.mem_cons_of_mem _ (Expr.mem_callsAll.2 ⟨argument, hargument, hcall⟩)
  · rintro ⟨hlength, harguments⟩ name' count hcall operation' hlookup'
    rw [Expr.calls] at hcall
    rcases List.mem_cons.1 hcall with hself | hcall
    · cases hself
      rw [hlookup] at hlookup'
      cases hlookup'
      exact hlength
    · obtain ⟨argument, hargument, hcall⟩ := Expr.mem_callsAll.1 hcall
      exact harguments argument hargument name' count hcall operation' hlookup'

/-- Calls of two operands fit if those of each do. -/
theorem Expr.callsFit_binary_iff {op : BinaryOp} {left right : Expr} :
    (Expr.binary op left right).CallsFit context ↔
      left.CallsFit context ∧ right.CallsFit context := by
  unfold Expr.CallsFit
  rw [Expr.calls]
  simp only [List.mem_append]
  constructor
  · intro hfit
    exact ⟨fun name count hcall => hfit name count (.inl hcall),
      fun name count hcall => hfit name count (.inr hcall)⟩
  · rintro ⟨hleft, hright⟩ name count (hcall | hcall)
    · exact hleft name count hcall
    · exact hright name count hcall

/-- **Where names stand for what they are used as, counting arguments asks
that calls fit**, and no more. -/
theorem Expr.Resolves.counted_iff (h : tree.Resolves context.laxGrammar) :
    tree.Resolves context.grammar ↔ tree.CallsFit context := by
  induction h with
  | num =>
    refine iff_of_true .num fun name count hcall => ?_
    rw [Expr.calls] at hcall
    exact absurd hcall List.not_mem_nil
  | var hlookup =>
    refine iff_of_true (.var hlookup) fun name count hcall => ?_
    rw [Expr.calls] at hcall
    exact absurd hcall List.not_mem_nil
  | @call name operation arguments hlookup _ _ ih =>
    change context.grammar.context.lookup name = some (.fn operation) at hlookup
    have hfit : (Expr.call name arguments).CallsFit context ↔ _ := Expr.callsFit_call_iff hlookup
    rw [Expr.resolves_call_iff hlookup, hfit]
    constructor
    · rintro ⟨hadmits, harguments⟩
      exact ⟨hadmits rfl, fun argument hargument =>
        (ih argument hargument).1 (harguments argument hargument)⟩
    · rintro ⟨hlength, harguments⟩
      exact ⟨fun _ => hlength, fun argument hargument =>
        (ih argument hargument).2 (harguments argument hargument)⟩
  | neg _ ih =>
    rw [Expr.resolves_neg_iff, ih]
    unfold Expr.CallsFit
    rw [Expr.calls]
  | fact _ ih =>
    rw [Expr.resolves_fact_iff, ih]
    unfold Expr.CallsFit
    rw [Expr.calls]
  | binary _ _ ihl ihr => rw [Expr.resolves_binary_iff, Expr.callsFit_binary_iff, ihl, ihr]

/-! ## Another context -/

/-- **A tree resolves where its names stand for things of the same kinds**,
as long as arguments are not counted. -/
theorem Expr.Resolves.transfer (h : tree.Resolves grammar)
    (hkinds : ∀ name meaning, grammar.context.lookup name = some meaning →
      ∃ meaning', context.lookup name = some meaning' ∧ meaning'.kind = meaning.kind) :
    tree.Resolves context.laxGrammar := by
  induction h with
  | num => exact .num
  | var hlookup =>
    obtain ⟨meaning, hmeaning, hkind⟩ := hkinds _ _ hlookup
    cases meaning with
    | var value => exact .var hmeaning
    | fn operation => cases hkind
  | call hlookup _ _ ih =>
    obtain ⟨meaning, hmeaning, hkind⟩ := hkinds _ _ hlookup
    cases meaning with
    | var value => cases hkind
    | fn operation => exact .call hmeaning (context.laxGrammar_admits _ _) ih
  | neg _ ih => exact .neg ih
  | fact _ ih => exact .fact ih
  | binary _ _ ihl ihr => exact .binary ihl ihr

/-- **The tokens of trees that resolve elsewhere derive them there too.** The
shape of a derivation depends on a grammar only through what its names stand
for. -/
theorem Derives.transfer {tokens : List Token} {phrase : Phrase}
    (h : Derives grammar tokens phrase) (hresolves : phrase.Resolves grammar') :
    Derives grammar' tokens phrase := by
  -- Only a name asks the grammar, and there the tree that resolves has the answer.
  induction h with
  | ofTerm _ ih => exact .ofTerm (ih hresolves)
  | ofFactor _ ih => exact .ofFactor (ih hresolves)
  | ofProduct _ ih => exact .ofProduct (ih hresolves)
  | ofPower _ ih => exact .ofPower (ih hresolves)
  | ofPostfixed _ ih => exact .ofPostfixed (ih hresolves)
  | ofPrimary _ ih => exact .ofPrimary (ih hresolves)
  | sum _ hsign _ ihl ihr =>
    obtain ⟨hleft, hright⟩ := Expr.resolves_binary_iff.1 hresolves
    exact .sum (ihl hleft) hsign (ihr hright)
  | quotient _ hsign _ ihl ihr =>
    obtain ⟨hleft, hright⟩ := Expr.resolves_binary_iff.1 hresolves
    exact .quotient (ihl hleft) hsign (ihr hright)
  | juxtaposition _ _ ihl ihr =>
    obtain ⟨hleft, hright⟩ := Expr.resolves_binary_iff.1 hresolves
    exact .juxtaposition (ihl hleft) (ihr hright)
  | exponentiation _ hsign _ ihl ihr =>
    obtain ⟨hleft, hright⟩ := Expr.resolves_binary_iff.1 hresolves
    exact .exponentiation (ihl hleft) hsign (ihr hright)
  | negation hsign _ ih => exact .negation hsign (ih (Expr.resolves_neg_iff.1 hresolves))
  | factorial _ hsign ih => exact .factorial (ih (Expr.resolves_fact_iff.1 hresolves)) hsign
  | number hkind => exact .number hkind
  | boundVariable hkind _ =>
    rcases hresolves with _ | hlookup
    exact .boundVariable hkind hlookup
  | group hopening _ hclosing ih => exact .group hopening (ih hresolves) hclosing
  | call hname _ hopening _ hclosing _ ih =>
    rcases hresolves with _ | _ | ⟨hlookup, hadmits, harguments⟩
    exact .call hname hlookup hopening (ih harguments) hclosing hadmits
  | noArguments => exact .noArguments
  | @firstArgument ts e _ ih =>
    have hfirst : e.Resolves grammar' := hresolves e (List.mem_singleton_self e)
    exact .firstArgument (ih hfirst)
  | @nextArgument ls rs comma es e _ hes hcomma _ ihl ihr =>
    obtain ⟨hleft, hright⟩ := List.forall_mem_append.1 hresolves
    have hlast : e.Resolves grammar' := hright e (List.mem_singleton_self e)
    exact .nextArgument (ihl hleft) hes hcomma (ihr hlast)

end

/-! ## Updated tables -/

section

variable {before after : SymbolTable} {source : String} {tree : Expr}

/-- A parsed tree resolves in each table that keeps the kinds of the first. -/
theorem resolves_of_keepsKinds (h : parse before.context source = .ok tree)
    (hkinds : before.KeepsKinds after) : tree.Resolves after.context.laxGrammar :=
  (resolves_of_parse h).1.transfer hkinds

/-- **A source whose calls still fit parses as before.** -/
theorem parse_of_keepsKinds (h : parse before.context source = .ok tree)
    (hkinds : before.KeepsKinds after) (hfit : tree.CallsFit after.context) :
    parse after.context source = .ok tree := by
  obtain ⟨tokens, last, htokens, hderives, -⟩ := exists_derives_of_parse h
  have hresolves := (resolves_of_keepsKinds h hkinds).counted_iff.2 hfit
  have hafter : Derives after.context.grammar tokens (.expression tree) :=
    hderives.transfer hresolves
  exact (parse_allows htokens hafter).eq_ok

/-- **One whose calls do not fit fails at a miscounted call**: its tokens
derive the tree as long as nobody counts, so nothing else can be wrong. -/
theorem parse_eq_error_of_keepsKinds (h : parse before.context source = .ok tree)
    (hkinds : before.KeepsKinds after) (hfit : ¬ tree.CallsFit after.context) :
    ∃ mismatch span, parse after.context source = .error ⟨.arityMismatch mismatch, span⟩ := by
  obtain ⟨tokens, last, htokens, hderives, -⟩ := exists_derives_of_parse h
  have hresolves := resolves_of_keepsKinds h hkinds
  have hafter : Derives after.context.laxGrammar tokens (.expression tree) :=
    hderives.transfer hresolves
  have hallows : after.context.laxGrammar.Allows (· = tree) (parse after.context source) :=
    parse_allows htokens hafter
  generalize houtcome : parse after.context source = outcome at hallows
  cases hallows with
  | ok htree =>
    subst htree
    exact absurd (hresolves.counted_iff.1 (resolves_of_parse houtcome).1) hfit
  | miscounted => exact ⟨_, _, rfl⟩

end

/-- **A kept tree agrees with its source parsed again**, along every run of
updates. Its names never go undefined. As long as its calls fit the arities
they have now, the source parses as the tree and evaluates as it does. Once
one does not, the source is refused for it, and the tree too unless a
factorial fails first. -/
theorem kept_tree_agrees_with_source (table : SymbolTable) (source : String) (tree : Expr)
    (h : parse table.context source = .ok tree) (updates : List SymbolTable.Update) :
    (∀ name, tree.eval (table.run updates).context ≠ .error (.undefinedVariable name) ∧
      tree.eval (table.run updates).context ≠ .error (.undefinedFunction name)) ∧
    (tree.CallsFit (table.run updates).context →
      parse (table.run updates).context source = .ok tree ∧
      (table.run updates).evaluate source =
        (tree.eval (table.run updates).context).mapError .evaluation ∧
      ((∃ value, tree.eval (table.run updates).context = .ok value) ∨
        ∃ error, tree.eval (table.run updates).context = .error error ∧ error.IsFactorial)) ∧
    (¬ tree.CallsFit (table.run updates).context →
      (∃ mismatch span, (table.run updates).evaluate source =
        .error (.syntactic ⟨.arityMismatch mismatch, span⟩)) ∧
      ∃ error, tree.eval (table.run updates).context = .error error ∧
        (error.IsFactorial ∨ ∃ mismatch, error = .arityMismatch mismatch)) := by
  have hkinds := table.keepsKinds_run updates
  generalize table.run updates = after at hkinds ⊢
  have hresolves := resolves_of_keepsKinds h hkinds
  have htells := hresolves.eval_tells.congr hresolves.counted_iff
  refine ⟨fun name => ?_, fun hfit => ?_, fun hfit => ?_⟩
  · generalize tree.eval after.context = outcome at htells ⊢
    cases htells with
    | value => exact ⟨nofun, nofun⟩
    | miscounted => exact ⟨nofun, nofun⟩
    | factorial hfactorial =>
      obtain ⟨value, rfl | rfl⟩ := hfactorial
      · exact ⟨nofun, nofun⟩
      · exact ⟨nofun, nofun⟩
  · have hparse := parse_of_keepsKinds h hkinds hfit
    refine ⟨hparse, ?_, eval_of_parse hparse⟩
    rw [SymbolTable.evaluate, Context.evaluate_of_parse_eq_ok hparse]
  · obtain ⟨mismatch, span, hparse⟩ := parse_eq_error_of_keepsKinds h hkinds hfit
    refine ⟨⟨mismatch, span, ?_⟩, ?_⟩
    · rw [SymbolTable.evaluate, Context.evaluate_of_parse_eq_error hparse]
      rfl
    · generalize tree.eval after.context = outcome at htells ⊢
      cases htells with
      | value hfits => exact absurd hfits hfit
      | miscounted => exact ⟨_, rfl, .inr ⟨_, rfl⟩⟩
      | factorial hfactorial => exact ⟨_, rfl, .inl hfactorial⟩

/-- Two symbols: a variable `x` of this value, and a function `f` of one argument. -/
def SymbolTable.sample (value : Float) : SymbolTable :=
  (SymbolTable.empty.insert "x" ⟨"x", .var value⟩).insert "f"
    ⟨"f", .fn (.ofCurried 1 fun x : Float => x)⟩

/-- A call is kept through an update that fails and one of its argument. It is
refused once its function takes none. -/
theorem kept_call_follows_arity :
    parse (SymbolTable.sample 2.0).context "f(x)" = .ok (.call "f" [.var "x"]) ∧
    parse ((SymbolTable.sample 2.0).run [.bind "F" 1.0, .bind "X" 3.0]).context "f(x)" =
      .ok (.call "f" [.var "x"]) ∧
    ∃ mismatch span,
      ((SymbolTable.sample 2.0).run [.register "F" (.ofCurried 0 (1.0 : Float))]).evaluate "f(x)" =
        .error (.syntactic ⟨.arityMismatch mismatch, span⟩) := by
  have hparse (value : Float) :
      parse (SymbolTable.sample value).context "f(x)" = .ok (.call "f" [.var "x"]) := by
    cbv
  have hkept (value bound next : Float) :
      ((SymbolTable.sample value).run [.bind "F" bound, .bind "X" next]).lookup "f" =
        some (.fn (.ofCurried 1 fun x : Float => x)) := by
    cbv
  have hchanged (value result : Float) :
      ((SymbolTable.sample value).run [.register "F" (.ofCurried 0 result)]).lookup "f" =
        some (.fn (.ofCurried 0 result)) := by
    cbv
  have hcalls : (Expr.call "f" [.var "x"]).calls = [("f", 1)] := rfl
  have hagrees := kept_tree_agrees_with_source _ _ _ (hparse 2.0)
  refine ⟨hparse 2.0, ?_, ?_⟩
  · refine ((hagrees [.bind "F" 1.0, .bind "X" 3.0]).2.1 fun name count hcall operation h => ?_).1
    rw [hcalls, List.mem_singleton] at hcall
    cases hcall
    cases (hkept 2.0 1.0 3.0).symm.trans h
    rfl
  · refine ((hagrees [.register "F" (.ofCurried 0 (1.0 : Float))]).2.2 fun hfit => ?_).1
    have hnone := hfit "f" 1 (by rw [hcalls]; exact List.mem_cons_self) _ (hchanged 2.0 1.0)
    cases hnone

end Calculator
