import Calculator.Evaluation
import Calculator.Proofs.Evaluation.KeptTree
import Calculator.Proofs.Grammar.Pairing
import Calculator.Proofs.Token.LetterCase
/-!
# Letter case and evaluation

Two sources that differ in the case of ASCII letters only have the same tokens but
for the case of their texts, so they are parsed side by side, and against a symbol
table they are the same tree but for the case of its names. A table tells no cases
of a name apart, so both trees have one value, or fail in one way
(`letter_case_never_matters`).
-/

namespace Calculator

variable (f : String → String)

/-! ## Values under changed names -/

/-- The evaluation error with the name in it changed. -/
def EvalError.mapName : EvalError → EvalError
  | .undefinedVariable name => .undefinedVariable (f name)
  | .undefinedFunction name => .undefinedFunction (f name)
  | .arityMismatch mismatch => .arityMismatch (mismatch.mapName f)
  | .negativeFactorial value => .negativeFactorial value
  | .nonIntegerFactorial value => .nonIntegerFactorial value

variable {f} {context : Context}

/-- A variable has its value under both names. -/
theorem Context.valueOf_map (hlookup : ∀ name, context.lookup (f name) = context.lookup name)
    (name : String) :
    context.variable? (f name) =
      (Except.mapError (EvalError.mapName f) <| context.variable? name) := by
  unfold Context.variable?
  rw [hlookup]
  split <;> rfl

/-- A function has its operation. -/
theorem Context.operationOf_map (hlookup : ∀ name, context.lookup (f name) = context.lookup name)
    (name : String) :
    context.function? (f name) = (context.function? name).mapError (EvalError.mapName f) := by
  unfold function?
  rw [hlookup]
  split <;> rfl

/-- And the operation its result. -/
theorem Operation.callAs_map (operation : Operation) (name : String) (arguments : List Float) :
    operation.callAs (f name) arguments =
      (operation.callAs name arguments).mapError (EvalError.mapName f) := by
  unfold callAs
  split <;> rfl

/-- A factorial is about no name. -/
theorem factorial_mapName (x : Float) :
    factorial x = (factorial x).mapError (EvalError.mapName f) := by
  unfold factorial
  split
  · rfl
  · split <;> rfl

mutual

/-- **A tree has its value under changed names** that stand for the same. -/
theorem Expr.eval_mapNames (hlookup : ∀ name, context.lookup (f name) = context.lookup name) :
    (tree : Expr) →
    (tree.mapNames f).eval context = (tree.eval context).mapError (EvalError.mapName f)
  | .num value => rfl
  | .var name => context.valueOf_map hlookup name
  | .call name arguments => by
    rw [mapNames, eval, eval, Context.operationOf_map hlookup, evalAll_mapNames hlookup arguments]
    cases context.function? name with
    | error error => rfl
    | ok operation =>
      cases evalAll context arguments with
      | error error => rfl
      | ok values => exact operation.callAs_map name values
  | .neg operand => by
    rw [mapNames, eval, eval, operand.eval_mapNames hlookup]
    cases operand.eval context <;> rfl
  | .fact operand => by
    rw [mapNames, eval, eval, operand.eval_mapNames hlookup]
    cases operand.eval context with
    | error error => rfl
    | ok x => exact factorial_mapName x
  | .binary op left right => by
    rw [mapNames, eval, eval, left.eval_mapNames hlookup, right.eval_mapNames hlookup]
    cases left.eval context with
    | error error => rfl
    | ok x => cases right.eval context <;> rfl

/-- So has each tree of a list. -/
theorem Expr.evalAll_mapNames (hlookup : ∀ name, context.lookup (f name) = context.lookup name) :
    (trees : List Expr) →
    evalAll context (mapAllNames f trees) =
      (evalAll context trees).mapError (EvalError.mapName f)
  | [] => rfl
  | first :: rest => by
    rw [mapAllNames, evalAll, evalAll, first.eval_mapNames hlookup,
      evalAll_mapNames hlookup rest]
    cases first.eval context with
    | error error => rfl
    | ok x => cases evalAll context rest <;> rfl

end

/-! ## Outcomes in small letters -/

namespace SmallLetters

/-- The tokens of a source, or its error, with all texts in small letters. -/
def tokens (outcome : Except (Located LexError) (List Token)) :
    Except (Located LexError) (List Token) :=
  (outcome.map (List.map (Token.mapText String.toLower))).mapError
    (Located.map (LexError.mapText String.toLower))

/-- The tree of a source, or its error, with all names in small letters. -/
def tree (outcome : Except (Located SyntaxError) Expr) : Except (Located SyntaxError) Expr :=
  (outcome.map (Expr.mapNames String.toLower)).mapError
    (Located.map (SyntaxError.mapText String.toLower))

/-- The error of an evaluation with all names in small letters. -/
def error : Error → Error
  | .lexical error => .lexical (error.map (LexError.mapText String.toLower))
  | .syntactic error => .syntactic (error.map (SyntaxError.mapText String.toLower))
  | .evaluation error => .evaluation (error.mapName String.toLower)
  | .symbol error => .symbol { error with name := error.name.toLower }

/-- The value of a source, or its error in small letters. -/
def value (outcome : Except Error Float) : Except Error Float := outcome.mapError error

/-- What a parser complains of is told apart by no letter. -/
theorem error_ofParse (complaint : Located SyntaxError) :
    error (.ofParse complaint) = .ofParse (complaint.map (SyntaxError.mapText String.toLower)) := by
  obtain ⟨value, span⟩ := complaint
  cases value <;> rfl

end SmallLetters

/-- **Tokens that differ in the case of their texts** only. -/
structure Token.SameLetters (token token' : Token) : Prop where
  kind_eq : token'.kind = token.kind
  start_eq : token'.start = token.start
  text_eq : token'.text.toLower = token.text.toLower

/-- In small letters they are one token. -/
theorem Token.sameLetters_iff {token token' : Token} : token.SameLetters token' ↔
    token.mapText String.toLower = token'.mapText String.toLower := by
  rw [mapText, mapText, Token.mk.injEq]
  exact ⟨fun h => ⟨h.kind_eq.symm, h.start_eq.symm, h.text_eq.symm⟩,
    fun ⟨hkind, hstart, htext⟩ => ⟨hkind.symm, hstart.symm, htext.symm⟩⟩

variable {token token' : Token} {source source' : String} {table : SymbolTable}

/-- They have one span. -/
theorem Token.SameLetters.span_eq (h : token.SameLetters token') : token'.span = token.span := by
  have hlength (s : String) : s.toLower.length = s.length := by
    rw [← String.length_toList, Text.toList_toLower, List.length_map, String.length_toList]
  rw [span, span, stop, stop, h.start_eq, ← hlength token'.text, h.text_eq, hlength]

/-- **A parser cannot tell them apart** against a table. -/
theorem pairing_sameLetters (table : SymbolTable) :
    Pairing String.toLower table.context table.context Token.SameLetters where
  kind_eq h := h.kind_eq
  text_eq h := h.text_eq
  value_eq h _ := by rw [← Literal.valueOf_toLower, h.text_eq, Literal.valueOf_toLower]
  lookup_eq {token token'} h _ := by
    show (table.lookup token'.text).map _ = (table.lookup token.text).map _
    rw [← table.lookup_toLower, h.text_eq, table.lookup_toLower]

/-- Errors at such tokens are the same in small letters, with their span. -/
theorem SyntaxError.Paired.map_eq {error error' : Located SyntaxError}
    (h : SyntaxError.Paired String.toLower Token.SameLetters error error') :
    error'.map (SyntaxError.mapText String.toLower) =
      error.map (SyntaxError.mapText String.toLower) := by
  cases h with
  | token hpair herror => rw [Located.map, Located.map, hpair.span_eq, herror]
  | @call name name' closing closing' mismatch mismatch' hname hclosing hmismatch =>
    have hstop : closing'.stop = closing.stop := congrArg Span.stop hclosing.span_eq
    simp only [Located.map, SyntaxError.mapText, hmismatch, hname.start_eq, hstop]

/-- So a run that keeps together is one outcome in small letters. -/
theorem Outcome.Paired.tree_eq {outcome outcome' : Except (Located SyntaxError) Expr}
    (h : Outcome.Paired String.toLower Token.SameLetters (fun tree tree' : Expr =>
      tree'.mapNames String.toLower = tree.mapNames String.toLower) outcome outcome') :
    SmallLetters.tree outcome' = SmallLetters.tree outcome := by
  cases h with
  | ok hgood => exact congrArg Except.ok hgood
  | error herror => exact congrArg Except.error herror.map_eq

/-! ## Sources that differ in case -/

/-- The streams of such sources are one in small letters. -/
theorem mapText_ofString_eq (h : source'.toLower = source.toLower) :
    (TokenStream.ofString source).mapText String.toLower =
      (TokenStream.ofString source').mapText String.toLower := by
  rw [← TokenStream.ofString_toLower, ← TokenStream.ofString_toLower, h]

/-- So their tokens are. -/
theorem tokens_eq_of_case (h : source'.toLower = source.toLower) :
    SmallLetters.tokens (tokenize source') = SmallLetters.tokens (tokenize source) := by
  have hstream (stream : TokenStream) : SmallLetters.tokens stream.toExcept =
      (stream.mapText String.toLower).toExcept := by
    obtain ⟨tokens, error | last⟩ := stream
    · rfl
    · simp [SmallLetters.tokens, TokenStream.toExcept, TokenStream.mapText, Reading.mapText,
        Except.map, Except.mapError]
  rw [tokenize, tokenize, hstream, hstream, mapText_ofString_eq h]

/-- **And their trees**, names being looked up in a table. -/
theorem tree_eq_of_case (h : source'.toLower = source.toLower) :
    SmallLetters.tree (parse table.context source') =
      SmallLetters.tree (parse table.context source) := by
  have hstream := mapText_ofString_eq h
  rw [parse_eq_parseStream, parse_eq_parseStream]
  generalize TokenStream.ofString source = stream at hstream ⊢
  generalize TokenStream.ofString source' = stream' at hstream ⊢
  obtain ⟨tokens, ending⟩ := stream
  obtain ⟨tokens', ending'⟩ := stream'
  obtain ⟨htokens, hending⟩ := TokenStream.mk.inj hstream
  have hpairs : List.Forall₂ Token.SameLetters tokens tokens' := by
    rw [← List.forall₂_eq_eq_eq, List.forall₂_map_left_iff, List.forall₂_map_right_iff] at htokens
    exact htokens.imp fun _ _ => Token.sameLetters_iff.2
  -- The machines keep step over the tokens, whether or not the streams end well.
  have hread := (pairing_sameLetters table).read Pairing.start hpairs
  rw [parseStream, parseStream, Machine.runStream, Machine.runStream, ← Machine.read,
    ← Machine.read]
  generalize Machine.start.read table.context tokens = outcome at hread ⊢
  generalize Machine.start.read table.context tokens' = outcome' at hread ⊢
  cases hread with
  | error herror => exact congrArg Except.error herror.map_eq
  | ok hmachine =>
    cases ending with
    | ok last =>
      cases ending' with
      | ok last' =>
        have hlast : last.SameLetters last' := Token.sameLetters_iff.2 (Except.ok.inj hending)
        exact ((pairing_sameLetters table).finish hmachine hlast).tree_eq
      | error error' => cases hending
    | error error =>
      cases ending' with
      | ok last' => cases hending
      | error error' =>
        have hmap : error.map (LexError.mapText String.toLower) =
            error'.map (LexError.mapText String.toLower) := Except.error.inj hending
        exact congrArg (Except.error ∘ Located.map SyntaxError.lexical) hmap.symm

/-- The value of a source is that of its tree in small letters. -/
theorem value_evaluate (table : SymbolTable) (source : String) :
    SmallLetters.value (table.evaluate source) =
      match SmallLetters.tree (parse table.context source) with
      | .error error => .error (.ofParse error)
      | .ok tree => (tree.eval table.context).mapError .evaluation := by
  rw [SymbolTable.evaluate]
  cases hparse : parse table.context source with
  | error error =>
    rw [Context.evaluate_of_parse_eq_error hparse]
    exact congrArg Except.error (SmallLetters.error_ofParse error)
  | ok tree =>
    rw [Context.evaluate_of_parse_eq_ok hparse]
    show SmallLetters.value ((tree.eval table.context).mapError Error.evaluation) =
      ((tree.mapNames String.toLower).eval table.context).mapError Error.evaluation
    rw [Expr.eval_mapNames table.lookup_toLower]
    cases tree.eval table.context <;> rfl

/-- **Letter case never matters.** Sources that differ in the case of ASCII letters only
have the same tokens, trees, values and errors against a table, but for the case of the
texts and names in them. -/
theorem letter_case_never_matters (table : SymbolTable) (source source' : String)
    (h : source'.toLower = source.toLower) :
    SmallLetters.tokens (tokenize source') = SmallLetters.tokens (tokenize source) ∧
      SmallLetters.tree (parse table.context source') =
        SmallLetters.tree (parse table.context source) ∧
      SmallLetters.value (table.evaluate source') =
        SmallLetters.value (table.evaluate source) := by
  refine ⟨tokens_eq_of_case h, tree_eq_of_case h, ?_⟩
  rw [value_evaluate, value_evaluate, tree_eq_of_case h]

/-- What is known of a call in small letters is known of the call in capitals. -/
theorem call_in_capitals : "F(X)".toLower = "f(x)".toLower ∧
    parse (SymbolTable.sample 2.0).context "f(x)" = .ok (.call "f" [.var "x"]) ∧
    SmallLetters.tree (parse (SymbolTable.sample 2.0).context "F(X)") =
      .ok (.call "f" [.var "x"]) ∧
    SmallLetters.tokens (tokenize "F(X)") = SmallLetters.tokens (tokenize "f(x)") ∧
    SmallLetters.value ((SymbolTable.sample 2.0).evaluate "F(X)") =
      SmallLetters.value ((SymbolTable.sample 2.0).evaluate "f(x)") := by
  have hcase : "F(X)".toLower = "f(x)".toLower := by cbv
  have hfunction : "f".toLower = "f" := by cbv
  have hvariable : "x".toLower = "x" := by cbv
  have hparse (value : Float) : parse (SymbolTable.sample value).context "f(x)" =
      .ok (.call "f" [.var "x"]) := by cbv
  obtain ⟨htokens, htree, hvalue⟩ :=
    letter_case_never_matters (SymbolTable.sample 2.0) "f(x)" "F(X)" hcase
  refine ⟨hcase, hparse 2.0, ?_, htokens, hvalue⟩
  rw [htree, hparse 2.0]
  show Except.ok (Expr.call "f".toLower [.var "x".toLower]) = _
  rw [hfunction, hvariable]

end Calculator
