import Calculator.Proofs.Grammar.Parsing
import Calculator.Proofs.Token.Scan
/-!
# Putting expressions together

A text that parses does so inside a longer one, as long as parentheses are around
it: its tokens are the same wherever it stands (`Reads`), and the grammar puts
phrases together without a look inside them. So the parser is compositional under
parentheses (`parse_compositional`), for the operators, for operands side by side and
for calls, which fail as a whole where the number of arguments is wrong.
-/

namespace Calculator

variable {grammar : Grammar} {context : Context}

/-- Where arguments are counted, there is a good outcome. -/
theorem Grammar.Allows.exists_ok {α : Type} {good : α → Prop}
    {outcome : Except (Located SyntaxError) α} (h : context.grammar.Allows good outcome) :
    ∃ a, outcome = .ok a ∧ good a := by
  cases h with
  | ok hgood => exact ⟨_, rfl, hgood⟩
  | miscounted hcounted => cases hcounted

/-! ## Phrases that are moved -/

/-- **The grammar looks at kinds and texts only**, not at where tokens stand. -/
theorem Derives.map {g : Token → Token} {ts : List Token} {phrase : Phrase}
    (hkind : ∀ token, (g token).kind = token.kind) (htext : ∀ token, (g token).text = token.text)
    (h : Derives grammar ts phrase) : Derives grammar (ts.map g) phrase := by
  induction h with
  | ofTerm _ ih => exact .ofTerm ih
  | sum _ hsign _ ihl ihr =>
    rw [List.map_append, List.map_cons]
    exact .sum ihl (by rwa [hkind]) ihr
  | ofFactor _ ih => exact .ofFactor ih
  | quotient _ hsign _ ihl ihr =>
    rw [List.map_append, List.map_cons]
    exact .quotient ihl (by rwa [hkind]) ihr
  | ofProduct _ ih => exact .ofProduct ih
  | negation hsign _ ih => exact .negation ((hkind _).trans hsign) ih
  | ofPower _ ih => exact .ofPower ih
  | juxtaposition _ _ ihl ihr =>
    rw [List.map_append]
    exact .juxtaposition ihl ihr
  | ofPostfixed _ ih => exact .ofPostfixed ih
  | exponentiation _ hsign _ ihl ihr =>
    rw [List.map_append, List.map_cons]
    exact .exponentiation ihl ((hkind _).trans hsign) ihr
  | ofPrimary _ ih => exact .ofPrimary ih
  | factorial _ hsign ih =>
    rw [List.map_append]
    exact .factorial ih ((hkind _).trans hsign)
  | @number t ht =>
    rw [← htext t]
    exact .number ((hkind t).trans ht)
  | @boundVariable t value ht hlookup =>
    rw [← htext t] at hlookup ⊢
    exact .boundVariable ((hkind t).trans ht) hlookup
  | group hopening _ hclosing ih =>
    rw [List.map_cons, List.map_append]
    exact .group ((hkind _).trans hopening) ih ((hkind _).trans hclosing)
  | @call ts name opening closing operation es hname hlookup hopening _ hclosing hadmits ih =>
    rw [List.map_cons, List.map_cons, List.map_append]
    rw [← htext name] at hlookup ⊢
    exact .call ((hkind _).trans hname) hlookup ((hkind _).trans hopening) ih
      ((hkind _).trans hclosing) hadmits
  | noArguments => exact .noArguments
  | firstArgument _ ih => exact .firstArgument ih
  | nextArgument _ hes hcomma _ ihl ihr =>
    rw [List.map_append, List.map_cons]
    exact .nextArgument ihl hes ((hkind _).trans hcomma) ihr

/-! ## Texts wherever they stand -/

/-- **Wherever the text stands**, it scans as tokens of this sort. -/
def Reads (text : List Char) (good : List Token → Prop) : Prop :=
  ∀ pos, ∃ tokens, Scans pos text tokens ∧ good tokens

variable {text rest before after : List Char} {good good' : List Token → Prop}
variable {kind : Kind} {c : Char}

namespace Reads

/-- Tokens of one sort may be of another. -/
theorem mono (h : Reads text good) (himp : ∀ tokens, good tokens → good' tokens) :
    Reads text good' := fun pos =>
  let ⟨tokens, hscans, hgood⟩ := h pos
  ⟨tokens, hscans, himp tokens hgood⟩

/-- One text may follow another at a boundary. -/
theorem append (h : Reads text good) (h' : Reads rest good') (hrest : Lexeme.Bounds rest) :
    Reads (text ++ rest) fun tokens => ∃ ls rs, tokens = ls ++ rs ∧ good ls ∧ good' rs := by
  intro pos
  obtain ⟨ls, hls, hgood⟩ := h pos
  obtain ⟨rs, hrs, hgood'⟩ := h' (pos + text.length)
  exact ⟨ls ++ rs, hls.append hrs hrest, ls, rs, rfl, hgood, hgood'⟩

/-- A symbol may precede any text. -/
theorem cons (kind : Kind) (hkind : kind.symbol? = some c) (h : Reads text good) :
    Reads (c :: text) fun tokens =>
      ∃ sign ts, tokens = sign :: ts ∧ sign.kind = kind ∧ good ts := by
  intro pos
  obtain ⟨ts, hts, hgood⟩ := h (pos + 1)
  exact ⟨_, .symbol hkind hts, _, ts, rfl, rfl, hgood⟩

/-- And follow any. -/
theorem concat (kind : Kind) (hkind : kind.symbol? = some c) (h : Reads text good) :
    Reads (text ++ [c]) fun tokens =>
      ∃ ts sign, tokens = ts ++ [sign] ∧ good ts ∧ sign.kind = kind := by
  have hnone : Reads [] (· = []) := fun pos => ⟨[], .blanks nofun, rfl⟩
  refine (h.append (cons kind hkind hnone) (Lexeme.bounds_of_symbol hkind)).mono ?_
  rintro _ ⟨ts, _, rfl, hts, sign, _, rfl, hsign, rfl⟩
  exact ⟨ts, sign, rfl, hts, hsign⟩

/-- Blanks may precede a text. -/
theorem indent (hbefore : ∀ c ∈ before, Text.isBlank c) (h : Reads text good) :
    Reads (before ++ text) good := fun pos =>
  let ⟨tokens, hscans, hgood⟩ := h (pos + before.length)
  ⟨tokens, .indent hbefore hscans, hgood⟩

/-- **A symbol may stand between two texts**, with blanks around it. -/
theorem join (kind : Kind) (h : Reads text good) (hbefore : ∀ c ∈ before, Text.isBlank c)
    (hkind : kind.symbol? = some c) (hafter : ∀ c ∈ after, Text.isBlank c) (h' : Reads rest good') :
    Reads (text ++ (before ++ c :: (after ++ rest))) fun tokens =>
      ∃ ls sign rs, tokens = ls ++ sign :: rs ∧ good ls ∧ sign.kind = kind ∧ good' rs := by
  have hbounds : Lexeme.Bounds (before ++ c :: (after ++ rest)) := by
    cases before with
    | nil => exact Lexeme.bounds_of_symbol hkind
    | cons blank before => exact Lexeme.bounds_of_blank (hbefore blank List.mem_cons_self)
  refine (h.append ((h'.indent hafter).cons kind hkind |>.indent hbefore) hbounds).mono ?_
  rintro _ ⟨ls, _, rfl, hls, sign, rs, rfl, hsign, hrs⟩
  exact ⟨ls, sign, rs, rfl, hls, hsign, hrs⟩

end Reads

/-! ## Phrases in parentheses -/

variable {source source' : String} {tree tree' : Expr} {phrase : Phrase} {ls rs ts : List Token}
variable {sign : Token} {l r e : Expr}

/-- A primary is an operand of `*` and `/`. -/
theorem Derives.factor_of_primary (h : Derives grammar ts (.primary e)) :
    Derives grammar ts (.factor e) :=
  .ofProduct (.ofPower (.ofPostfixed (.ofPrimary h)))

/-- It is an expression, too. -/
theorem Derives.expression_of_primary (h : Derives grammar ts (.primary e)) :
    Derives grammar ts (.expression e) :=
  .ofTerm (.ofFactor h.factor_of_primary)

/-- **Two primaries are the operands of any operator.** -/
theorem Derives.binary_of_primary {op : BinaryOp} (hl : Derives grammar ls (.primary l))
    (hop : BinaryOp.ofKind? sign.kind = some op) (hr : Derives grammar rs (.primary r)) :
    Derives grammar (ls ++ sign :: rs) (.expression (.binary op l r)) := by
  cases hkind : sign.kind with
  | plus | minus =>
    rw [hkind] at hop
    cases hop
    exact .sum hl.expression_of_primary (by simp [hkind, sumOperators])
      (.ofFactor hr.factor_of_primary)
  | star | slash =>
    rw [hkind] at hop
    cases hop
    exact .ofTerm (.quotient (.ofFactor hl.factor_of_primary) (by simp [hkind, termOperators])
      hr.factor_of_primary)
  | caret =>
    rw [hkind] at hop
    cases hop
    exact .ofTerm (.ofFactor (.ofProduct (.ofPower
      (.exponentiation (.ofPrimary hl) hkind (.ofPostfixed (.ofPrimary hr))))))
  | _ =>
    rw [hkind] at hop
    cases hop

/-- A text in parentheses. -/
def inParentheses (text : List Char) : List Char := '(' :: (text ++ [')'])

/-- **An expression in parentheses is a primary**, wherever it stands. -/
theorem Reads.group (h : Reads text (Derives grammar · (.expression e))) :
    Reads (inParentheses text) (Derives grammar · (.primary e)) := by
  refine ((h.concat .closeParen rfl).cons .openParen rfl).mono ?_
  rintro _ ⟨opening, _, rfl, hopening, ts, closing, rfl, hts, hclosing⟩
  exact .group hopening hts hclosing

/-! ## Sources that parse -/

/-- **A source that parses is an expression** wherever it stands. -/
theorem reads_of_parse (h : parse context source = .ok tree) :
    Reads source.toList (Derives context.grammar · (.expression tree)) := by
  intro pos
  obtain ⟨tokens, last, htokens, hderives, -⟩ := exists_derives_of_parse h
  obtain ⟨tokens', hscans, heq⟩ := tokenize_eq_ok_iff.1 htokens
  obtain ⟨rfl, -⟩ := List.append_inj' heq rfl
  have hshift := hscans.shift pos
  rw [Nat.zero_add] at hshift
  exact ⟨_, hshift, hderives.map (fun _ => rfl) fun _ => rfl⟩

/-- And a text that is one parses. -/
theorem parse_of_reads (h : Reads source.toList (Derives context.grammar · (.expression tree))) :
    parse context source = .ok tree := by
  obtain ⟨tokens, hscans, hderives⟩ := h 0
  exact (parse_allows (tokenize_eq_ok_iff.2 ⟨tokens, hscans, rfl⟩) hderives).eq_ok

/-- A source in parentheses, as a text. -/
theorem toList_inParentheses (source : String) :
    ("(" ++ source ++ ")").toList = inParentheses source.toList := by
  simp [inParentheses]

/-- Parentheses add nothing to a tree. -/
theorem parse_group (h : parse context source = .ok tree) :
    parse context ("(" ++ source ++ ")") = .ok tree := by
  refine parse_of_reads ?_
  rw [toList_inParentheses]
  exact (reads_of_parse h).group.mono fun _ => Derives.expression_of_primary

/-- **An operator between parentheses** joins the trees in them. -/
theorem parse_binary {kind : Kind} {op : BinaryOp} {c : Char} {before after : String}
    (h : parse context source = .ok tree) (h' : parse context source' = .ok tree')
    (hop : BinaryOp.ofKind? kind = some op) (hkind : kind.symbol? = some c)
    (hbefore : ∀ c ∈ before.toList, Text.isBlank c)
    (hafter : ∀ c ∈ after.toList, Text.isBlank c) :
    parse context ("(" ++ source ++ ")" ++ before ++ .singleton c ++ after ++
      "(" ++ source' ++ ")") = .ok (.binary op tree tree') := by
  have htext : ("(" ++ source ++ ")" ++ before ++ .singleton c ++ after ++
      "(" ++ source' ++ ")").toList = inParentheses source.toList ++
        (before.toList ++ c :: (after.toList ++ inParentheses source'.toList)) := by
    simp [inParentheses]
  refine parse_of_reads ?_
  rw [htext]
  refine ((reads_of_parse h).group.join kind hbefore hkind hafter (reads_of_parse h').group).mono ?_
  rintro _ ⟨ls, sign, rs, rfl, hls, rfl, hrs⟩
  exact hls.binary_of_primary hop hrs

/-- Side by side they are multiplied. -/
theorem parse_juxtaposed (h : parse context source = .ok tree)
    (h' : parse context source' = .ok tree') :
    parse context ("(" ++ source ++ ")(" ++ source' ++ ")") = .ok (.binary .mul tree tree') := by
  have htext : ("(" ++ source ++ ")(" ++ source' ++ ")").toList =
      inParentheses source.toList ++ inParentheses source'.toList := by
    simp [inParentheses]
  refine parse_of_reads ?_
  rw [htext]
  refine ((reads_of_parse h).group.append (reads_of_parse h').group
    (Lexeme.bounds_cons (by decide))).mono ?_
  rintro _ ⟨ls, rs, rfl, hls, hrs⟩
  exact .ofTerm (.ofFactor (.ofProduct (.juxtaposition (.ofPostfixed (.ofPrimary hls))
    (.ofPower (.ofPostfixed (.ofPrimary hrs))))))

/-- A sign before them negates. -/
theorem parse_negated (h : parse context source = .ok tree) :
    parse context ("-(" ++ source ++ ")") = .ok (.neg tree) := by
  have htext : ("-(" ++ source ++ ")").toList = '-' :: inParentheses source.toList := by
    simp [inParentheses]
  refine parse_of_reads ?_
  rw [htext]
  refine ((reads_of_parse h).group.cons .minus rfl).mono ?_
  rintro _ ⟨sign, ts, rfl, hsign, hts⟩
  exact .ofTerm (.ofFactor (.negation hsign (.ofPower (.ofPostfixed (.ofPrimary hts)))))

/-- And a bang behind them takes the factorial. -/
theorem parse_bang (h : parse context source = .ok tree) :
    parse context ("(" ++ source ++ ")!") = .ok (.fact tree) := by
  have htext : ("(" ++ source ++ ")!").toList = inParentheses source.toList ++ ['!'] := by
    simp [inParentheses]
  refine parse_of_reads ?_
  rw [htext]
  refine ((reads_of_parse h).group.concat .bang rfl).mono ?_
  rintro _ ⟨ts, sign, rfl, hts, hsign⟩
  exact .ofTerm (.ofFactor (.ofProduct (.ofPower (.ofPostfixed (.factorial hts hsign)))))

/-! ## Calls -/

/-- The text of a call. -/
def callText (name : String) (arguments : List String) : String :=
  name ++ "(" ++ ",".intercalate arguments ++ ")"

/-- Texts with commas between them are the first and the others, each after a comma. -/
theorem intercalate_cons (separator first : List Char) (texts : List (List Char)) :
    separator.intercalate (first :: texts) = first ++ texts.flatMap (separator ++ ·) := by
  induction texts generalizing first with
  | nil => rw [List.intercalate_singleton, List.flatMap_nil, List.append_nil]
  | cons next texts ih =>
    rw [List.intercalate_cons_cons, ih, List.flatMap_cons, List.append_assoc, List.append_assoc]

variable {arguments : List (String × Expr)}

/-- Arguments may be followed by more of them. -/
theorem Reads.more_arguments {trees : List Expr}
    (h : Reads text (Derives context.grammar · (.arguments trees))) (hne : trees ≠ [])
    (harguments : ∀ argument ∈ arguments, parse context argument.1 = .ok argument.2) :
    Reads (text ++ (arguments.map (·.1.toList)).flatMap ([','] ++ ·))
      (Derives context.grammar · (.arguments (trees ++ arguments.map Prod.snd))) := by
  -- The grammar adds an argument at the end, so those before it are carried along.
  induction arguments generalizing text trees with
  | nil => simpa using h
  | cons argument rest ih =>
    obtain ⟨hargument, hrest⟩ := List.forall_mem_cons.1 harguments
    have hnone : ∀ c ∈ [], Text.isBlank c := nofun
    have hnext : Reads (text ++ ([] ++ ',' :: ([] ++ argument.1.toList)))
        (Derives context.grammar · (.arguments (trees ++ [argument.2]))) := by
      refine (h.join .comma hnone rfl hnone (reads_of_parse hargument)).mono ?_
      rintro _ ⟨ls, sign, rs, rfl, hls, hsign, hrs⟩
      exact .nextArgument hls hne hsign hrs
    simpa using ih hnext (by simp) hrest

/-- **Texts that parse are arguments**, with commas between them. -/
theorem reads_arguments
    (h : ∀ argument ∈ arguments, parse context argument.1 = .ok argument.2) :
    Reads (",".intercalate (arguments.map Prod.fst)).toList
      (Derives context.grammar · (.arguments (arguments.map Prod.snd))) := by
  rw [String.toList_intercalate]
  cases arguments with
  | nil => exact fun pos => ⟨[], .blanks nofun, .noArguments⟩
  | cons argument rest =>
    obtain ⟨hargument, hrest⟩ := List.forall_mem_cons.1 h
    have hfirst : Reads argument.1.toList
        (Derives context.grammar · (.arguments [argument.2])) :=
      (reads_of_parse hargument).mono fun _ => .firstArgument
    have hall := hfirst.more_arguments (by simp) hrest
    rw [List.map_cons, List.map_cons, intercalate_cons, List.map_map, List.map_cons]
    exact hall

/-- The tokens of a call, of which the first begins it and the last ends it. -/
theorem scans_callText {name : String} (hname : name.toList ∈ Lexeme.identifiers)
    (h : ∀ argument ∈ arguments, parse context argument.1 = .ok argument.2) :
    ∃ opening closing ts,
      Scans 0 (callText name (arguments.map Prod.fst)).toList
        (⟨.identifier, 0, name⟩ :: opening :: (ts ++ [closing])) ∧
      opening.kind = .openParen ∧ closing.kind = .closeParen ∧
      closing.stop = (callText name (arguments.map Prod.fst)).length ∧
      Derives context.grammar ts (.arguments (arguments.map Prod.snd)) := by
  obtain ⟨ts, hts, hderives⟩ := reads_arguments h (name.length + 1)
  let inner := ",".intercalate (arguments.map Prod.fst)
  have htext : (callText name (arguments.map Prod.fst)).toList =
      name.toList ++ '(' :: (inner.toList ++ [')']) := by
    simp [callText, inner]
  have hlength : (callText name (arguments.map Prod.fst)).length =
      name.length + 1 + inner.toList.length + 1 := by
    rw [← String.length_toList, htext]
    simp only [List.length_append, List.length_cons, List.length_nil, String.length_toList]
    omega
  -- From the parenthesis that closes the call back to its name.
  have hclosing : Scans (name.length + 1 + inner.toList.length) [')']
      [⟨.closeParen, name.length + 1 + inner.toList.length, .ofList [')']⟩] :=
    .symbol rfl (.blanks nofun)
  have hinner := hts.append hclosing (Lexeme.bounds_cons (by decide))
  have hopening : Scans (0 + name.toList.length) ('(' :: (inner.toList ++ [')']))
      (⟨.openParen, 0 + name.toList.length, .ofList ['(']⟩ :: _) :=
    .symbol rfl (by rw [Nat.zero_add, String.length_toList]; exact hinner)
  have hword : Lexeme.IsWord .identifier name.toList := .identifier hname
  have hcall := hopening.word hword (.inr (Lexeme.bounds_cons (by decide)))
  rw [String.ofList_toList] at hcall
  refine ⟨⟨.openParen, 0 + name.toList.length, .ofList ['(']⟩,
    ⟨.closeParen, name.length + 1 + inner.toList.length, .ofList [')']⟩, ts, ?_, rfl, rfl, ?_,
    hderives⟩
  · rw [htext]
    exact hcall
  · rw [hlength, Token.stop, String.length_ofList]
    rfl

/-- **The tokens of a call are parsed as a whole**: as the call of its function if that
takes as many arguments, and else as the error that says so. -/
theorem parse_of_call_tokens {name opening closing : Token} {operation : Operation}
    {es : List Expr} (hscans : Scans 0 source.toList (name :: opening :: (ts ++ [closing])))
    (hname : name.kind = .identifier) (hlookup : context.lookup name.text = some (.fn operation))
    (hopening : opening.kind = .openParen) (hderives : Derives context.grammar ts (.arguments es))
    (hclosing : closing.kind = .closeParen) :
    parse context source =
      if es.length = operation.arity then .ok (.call name.text es)
      else .error ⟨.arityMismatch ⟨name.text, operation.arity, es.length⟩,
        name.start, closing.stop⟩ := by
  obtain ⟨tokens, last, heq, -, -, hparse⟩ :=
    parse_eq_of_tokenize (tokenize_eq_ok_iff.2 ⟨_, hscans, rfl⟩)
  obtain ⟨rfl, -⟩ := List.append_inj' heq rfl
  have hread : Machine.start.read context (name :: opening :: (ts ++ [closing])) = _ :=
    Machine.read_call .start hname hlookup hopening
  obtain ⟨next, harguments, hin⟩ :=
    (hderives.follows name operation.arity .start []).exists_ok
  have hopened : Machine.read context
      ⟨⟨.call name operation.arity [], .start⟩ :: Machine.start.levels, .start, .start⟩ ts =
        .ok next := harguments
  rw [hparse, hread, hopened]
  show ((next.step context closing).bind fun machine => machine.finish last) = _
  rw [Machine.step_closeCall hin hclosing, Machine.endCall, List.length_reverse,
    List.reverse_reverse]
  split <;> rfl

/-- So is the text of one. -/
theorem parse_callText {name : String} {operation : Operation}
    (hname : name.toList ∈ Lexeme.identifiers)
    (hlookup : context.lookup name = some (.fn operation))
    (h : ∀ argument ∈ arguments, parse context argument.1 = .ok argument.2) :
    parse context (callText name (arguments.map Prod.fst)) =
      if arguments.length = operation.arity then .ok (.call name (arguments.map Prod.snd))
      else .error ⟨.arityMismatch ⟨name, operation.arity, arguments.length⟩,
        0, (callText name (arguments.map Prod.fst)).length⟩ := by
  obtain ⟨opening, closing, ts, hscans, hopening, hclosing, hstop, hderives⟩ :=
    scans_callText hname h
  rw [parse_of_call_tokens hscans rfl hlookup hopening hderives hclosing, List.length_map, hstop]

/-- **Parsing is compositional under parentheses.** Whatever sources parse as, they parse
as that in parentheses, as operands of each operator and side by side, under a sign and
before a bang, and as the arguments of a call. -/
theorem parse_compositional (context : Context) :
    (∀ (a b : String) (t u : Expr), parse context a = .ok t → parse context b = .ok u →
      parse context ("(" ++ a ++ ")") = .ok t ∧
      (∀ (kind : Kind) (op : BinaryOp) (c : Char) (before after : String),
        BinaryOp.ofKind? kind = some op → kind.symbol? = some c →
        (∀ c ∈ before.toList, Text.isBlank c) → (∀ c ∈ after.toList, Text.isBlank c) →
        parse context ("(" ++ a ++ ")" ++ before ++ .singleton c ++ after ++ "(" ++ b ++ ")") =
          .ok (.binary op t u)) ∧
      parse context ("(" ++ a ++ ")(" ++ b ++ ")") = .ok (.binary .mul t u) ∧
      parse context ("-(" ++ a ++ ")") = .ok (.neg t) ∧
      parse context ("(" ++ a ++ ")!") = .ok (.fact t)) ∧
    ∀ (name : String) (operation : Operation) (arguments : List (String × Expr)),
      name.toList ∈ Lexeme.identifiers → context.lookup name = some (.fn operation) →
      (∀ argument ∈ arguments, parse context argument.1 = .ok argument.2) →
      parse context (callText name (arguments.map Prod.fst)) =
        if arguments.length = operation.arity then .ok (.call name (arguments.map Prod.snd))
        else .error ⟨.arityMismatch ⟨name, operation.arity, arguments.length⟩,
          0, (callText name (arguments.map Prod.fst)).length⟩ := by
  refine ⟨fun a b t u ha hb => ⟨parse_group ha, ?_, parse_juxtaposed ha hb, parse_negated ha,
    parse_bang ha⟩, ?_⟩
  · intro kind op c before after hop hkind hbefore hafter
    exact parse_binary ha hb hop hkind hbefore hafter
  · intro name operation arguments hname hlookup harguments
    exact parse_callText hname hlookup harguments

/-- A sign inside parentheses stays there, before a caret as in an argument, and one
argument too many is counted. -/
theorem parse_sign_in_parentheses :
    parse (.sample 2.0) "-x" = .ok (.neg (.var "x")) ∧ parse (.sample 2.0) "x" = .ok (.var "x") ∧
      parse (.sample 2.0) "(-x) ^ (x)" = .ok (.binary .pow (.neg (.var "x")) (.var "x")) ∧
      parse (.sample 2.0) "f(-x)" = .ok (.call "f" [.neg (.var "x")]) ∧
      parse (.sample 2.0) "f(-x,x)" = .error ⟨.arityMismatch ⟨"f", 1, 2⟩, 0, 7⟩ := by
  have hsign (value : Float) : parse (.sample value) "-x" = .ok (.neg (.var "x")) := by cbv
  have hname (value : Float) : parse (.sample value) "x" = .ok (.var "x") := by cbv
  have hspace : ∀ c ∈ " ".toList, Text.isBlank c := List.forall_mem_singleton.2 (by decide)
  have hidentifier : "f".toList ∈ Lexeme.identifiers :=
    ⟨'f', [], rfl, by decide, List.forall_mem_nil _⟩
  obtain ⟨hoperations, hcalls⟩ := parse_compositional (.sample 2.0)
  have hpower := (hoperations "-x" "x" _ _ (hsign 2.0) (hname 2.0)).2.1 .caret .pow '^' " " " "
    rfl rfl hspace hspace
  have hcall := hcalls "f" _ [("-x", .neg (.var "x"))] hidentifier rfl
    (by simpa using hsign 2.0)
  have hmiscounted := hcalls "f" _ [("-x", .neg (.var "x")), ("x", .var "x")] hidentifier rfl
    (by simpa using ⟨hsign 2.0, hname 2.0⟩)
  refine ⟨hsign 2.0, hname 2.0, ?_, ?_, ?_⟩
  · exact hpower
  · exact hcall
  · exact hmiscounted

end Calculator
