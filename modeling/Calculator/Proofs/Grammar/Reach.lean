import Calculator.Proofs.Evaluation.Resolution
import Calculator.Proofs.Grammar.Composition
import Calculator.Proofs.Number.Unsigned
/-!
# The trees that sources parse as

Parsing gives only trees whose leaves were written: its numbers are values of
literals and its names are identifiers (`Derives.writable`). And every such tree
is given, if its names stand for what it uses them as, whatever stands inside
what: with each operand in parentheses a text says the tree and no other
(`Expr.Writable.exists_parse`). So the grammar, as bare as it is, reaches all of
them (`reached_iff_resolves_and_writable`).
-/

namespace Calculator

variable {context : Context} {tree : Expr} {source : String} {tokens : List Token}

/-- **The leaves can be written**: numbers as literals, names as identifiers. -/
inductive Expr.Writable : Expr → Prop
  | num {literal : List Char} : literal ∈ Literal.language →
      Expr.Writable (.num (Literal.valueOf (.ofList literal)))
  | var {name : String} : name.toList ∈ Lexeme.identifiers → Expr.Writable (.var name)
  | call {name : String} {arguments : List Expr} : name.toList ∈ Lexeme.identifiers →
      (∀ argument ∈ arguments, Expr.Writable argument) → Expr.Writable (.call name arguments)
  | neg {operand : Expr} : Expr.Writable operand → Expr.Writable (.neg operand)
  | fact {operand : Expr} : Expr.Writable operand → Expr.Writable (.fact operand)
  | binary {op : BinaryOp} {left right : Expr} : Expr.Writable left → Expr.Writable right →
      Expr.Writable (.binary op left right)

/-- A phrase can be written if its trees can. -/
def Phrase.Writable : Phrase → Prop
  | .expression tree | .term tree | .factor tree | .product tree | .power tree
  | .postfixed tree | .primary tree => tree.Writable
  | .arguments trees => ∀ tree ∈ trees, tree.Writable

/-! ## What is parsed was written -/

/-- The text of a number is a literal. -/
theorem Lexeme.IsWord.mem_language {text : List Char} (h : IsWord .number text) :
    text ∈ Literal.language := by
  rcases h with hsymbol | _ | hliteral
  · cases hsymbol
  · exact hliteral

/-- The text of an identifier is one. -/
theorem Lexeme.IsWord.mem_identifiers {text : List Char} (h : IsWord .identifier text) :
    text ∈ identifiers := by
  rcases h with hsymbol | hname | _
  · cases hsymbol
  · exact hname

/-- **The tokens of a text are words.** -/
theorem Scans.isWord {pos : Nat} {text : List Char} (h : Scans pos text tokens) :
    ∀ token ∈ tokens, Lexeme.IsWord token.kind token.text.toList := by
  induction h with
  | blanks => exact List.forall_mem_nil _
  | token _ hread hkind _ ih =>
    refine List.forall_mem_cons.2 ⟨?_, ih⟩
    rw [String.toList_ofList]
    exact Lexeme.isWord_of_read hread hkind

/-- **What words derive can be written.** -/
theorem Derives.writable {grammar : Grammar} {phrase : Phrase} (h : Derives grammar tokens phrase)
    (hwords : ∀ token ∈ tokens, Lexeme.IsWord token.kind token.text.toList) :
    phrase.Writable := by
  induction h with
  | ofTerm _ ih | ofFactor _ ih | ofProduct _ ih | ofPower _ ih | ofPostfixed _ ih
  | ofPrimary _ ih => exact ih hwords
  | sum _ _ _ ihl ihr | quotient _ _ _ ihl ihr | exponentiation _ _ _ ihl ihr =>
    obtain ⟨hl, hr⟩ := List.forall_mem_append.1 hwords
    exact .binary (ihl hl) (ihr (List.forall_mem_cons.1 hr).2)
  | juxtaposition _ _ ihl ihr =>
    obtain ⟨hl, hr⟩ := List.forall_mem_append.1 hwords
    exact .binary (ihl hl) (ihr hr)
  | negation _ _ ih => exact .neg (ih (List.forall_mem_cons.1 hwords).2)
  | factorial _ _ ih => exact .fact (ih (List.forall_mem_append.1 hwords).1)
  | @number t hkind =>
    have hword := hwords t List.mem_cons_self
    rw [hkind] at hword
    have hwritable := Expr.Writable.num hword.mem_language
    rw [String.ofList_toList] at hwritable
    exact hwritable
  | @boundVariable t _ hkind _ =>
    have hword := hwords t List.mem_cons_self
    rw [hkind] at hword
    exact .var hword.mem_identifiers
  | group _ _ _ ih =>
    obtain ⟨-, hrest⟩ := List.forall_mem_cons.1 hwords
    exact ih (List.forall_mem_append.1 hrest).1
  | @call ts name _ _ _ es hkind _ _ _ _ _ ih =>
    obtain ⟨hword, hrest⟩ := List.forall_mem_cons.1 hwords
    obtain ⟨-, hrest⟩ := List.forall_mem_cons.1 hrest
    rw [hkind] at hword
    exact .call hword.mem_identifiers (ih (List.forall_mem_append.1 hrest).1)
  | noArguments => exact List.forall_mem_nil _
  | firstArgument _ ih => exact List.forall_mem_singleton.2 (ih hwords)
  | nextArgument _ _ _ _ ihl ihr =>
    obtain ⟨hl, hr⟩ := List.forall_mem_append.1 hwords
    exact List.forall_mem_append.2
      ⟨ihl hl, List.forall_mem_singleton.2 (ihr (List.forall_mem_cons.1 hr).2)⟩

/-- A tree that was parsed can be written. -/
theorem writable_of_parse (h : parse context source = .ok tree) : tree.Writable := by
  obtain ⟨tokens, last, htokens, hderives, -⟩ := exists_derives_of_parse h
  obtain ⟨tokens', hscans, heq⟩ := tokenize_eq_ok_iff.1 htokens
  obtain ⟨rfl, -⟩ := List.append_inj' heq rfl
  exact hderives.writable hscans.isWord

/-! ## What can be written is parsed -/

/-- A word is one token wherever it stands. -/
theorem Lexeme.IsWord.reads {kind : Kind} {text : List Char} (h : IsWord kind text) :
    Reads text (∃ pos, · = [⟨kind, pos, .ofList text⟩]) := by
  intro pos
  have hnothing : Scans (pos + text.length) [] [] := .blanks nofun
  have hscans := hnothing.word h (.inr bounds_nil)
  rw [List.append_nil] at hscans
  exact ⟨_, hscans, pos, rfl⟩

/-- A literal parses as its value. -/
theorem parse_literal {literal : List Char} (h : literal ∈ Literal.language) :
    parse context (.ofList literal) = .ok (.num (Literal.valueOf (.ofList literal))) := by
  refine parse_of_reads ?_
  rw [String.toList_ofList]
  refine (Lexeme.IsWord.number h).reads.mono ?_
  rintro _ ⟨pos, rfl⟩
  exact Derives.expression_of_primary (.number rfl)

/-- The name of a variable parses as the variable. -/
theorem parse_variable {name : String} {value : Float} (h : name.toList ∈ Lexeme.identifiers)
    (hlookup : context.lookup name = some (.var value)) : parse context name = .ok (.var name) := by
  refine parse_of_reads ((Lexeme.IsWord.identifier h).reads.mono ?_)
  rintro _ ⟨pos, rfl⟩
  rw [String.ofList_toList]
  exact Derives.expression_of_primary (.boundVariable rfl hlookup)

/-- Every operation has an operator. -/
theorem BinaryOp.exists_operator (op : BinaryOp) :
    ∃ kind c, ofKind? kind = some op ∧ kind.symbol? = some c := by
  cases op with
  | add => exact ⟨.plus, _, rfl, rfl⟩
  | sub => exact ⟨.minus, _, rfl, rfl⟩
  | mul => exact ⟨.star, _, rfl, rfl⟩
  | div => exact ⟨.slash, _, rfl, rfl⟩
  | pow => exact ⟨.caret, _, rfl, rfl⟩

/-- The texts of trees, one beside each of them. -/
theorem exists_texts {trees : List Expr}
    (h : ∀ tree ∈ trees, ∃ source, parse context source = .ok tree) :
    ∃ arguments : List (String × Expr), arguments.map Prod.snd = trees ∧
      ∀ argument ∈ arguments, parse context argument.1 = .ok argument.2 := by
  induction trees with
  | nil => exact ⟨[], rfl, List.forall_mem_nil _⟩
  | cons tree trees ih =>
    obtain ⟨⟨source, hsource⟩, hrest⟩ := List.forall_mem_cons.1 h
    obtain ⟨arguments, rfl, harguments⟩ := ih hrest
    exact ⟨(source, tree) :: arguments, rfl, List.forall_mem_cons.2 ⟨hsource, harguments⟩⟩

/-- **A tree that can be written is parsed**, once its names stand for what it
uses them as. -/
theorem Expr.Writable.exists_parse (h : tree.Writable) (hresolves : tree.Resolves context.grammar) :
    ∃ source, parse context source = .ok tree := by
  -- Every operand stands in parentheses, so no text has to be looked into.
  induction h with
  | num hliteral => exact ⟨_, parse_literal hliteral⟩
  | @var name hname =>
    rcases hresolves with _ | hlookup
    exact ⟨name, parse_variable hname hlookup⟩
  | @call name trees hname _ ih =>
    rcases hresolves with _ | _ | ⟨hlookup, hadmits, hall⟩
    obtain ⟨arguments, rfl, harguments⟩ := exists_texts fun tree ht => ih tree ht (hall tree ht)
    have hcall := parse_callText hname hlookup harguments
    rw [if_pos (by simpa using hadmits rfl)] at hcall
    exact ⟨_, hcall⟩
  | neg _ ih =>
    obtain ⟨source, hsource⟩ := ih (Expr.resolves_neg_iff.1 hresolves)
    exact ⟨_, parse_negated hsource⟩
  | fact _ ih =>
    obtain ⟨source, hsource⟩ := ih (Expr.resolves_fact_iff.1 hresolves)
    exact ⟨_, parse_bang hsource⟩
  | @binary op _ _ _ _ ihl ihr =>
    obtain ⟨hl, hr⟩ := Expr.resolves_binary_iff.1 hresolves
    obtain ⟨left, hleft⟩ := ihl hl
    obtain ⟨right, hright⟩ := ihr hr
    obtain ⟨kind, c, hop, hkind⟩ := op.exists_operator
    have hnone : ∀ c ∈ "".toList, Text.isBlank c := nofun
    exact ⟨_, parse_binary hleft hright hop hkind hnone hnone⟩

/-- **Sources parse as exactly the well-formed trees**: those whose names stand for
what they are used as, each call with as many arguments as its function takes, and
whose leaves can be written. No literal has a value with a sign, or one that is no
number. -/
theorem reached_iff_resolves_and_writable (context : Context) :
    (∀ tree, (∃ source, parse context source = .ok tree) ↔
      tree.Resolves context.grammar ∧ tree.Writable) ∧
    ∀ literal ∈ Literal.language,
      (Binary64.ofFloat (Literal.valueOf (.ofList literal))).IsUnsigned := by
  refine ⟨fun tree => ⟨?_, ?_⟩, fun literal _ => Literal.isUnsigned_value _⟩
  · rintro ⟨source, h⟩
    exact ⟨(resolves_of_parse h).1, writable_of_parse h⟩
  · rintro ⟨hresolves, hwritable⟩
    exact hwritable.exists_parse hresolves

/-- A sign is reached under an exponent and a product on the left of another, while
a function that lacks its argument is not reached. -/
theorem reached_sign_under_exponent :
    (∃ source, parse (.sample 2.0) source = .ok (.binary .pow (.neg (.var "x"))
      (.binary .mul (.binary .mul (.var "x") (.var "x")) (.call "f" [.var "x"])))) ∧
    (¬ ∃ source, parse (.sample 2.0) source = .ok (.call "f" [])) ∧
    (Binary64.ofFloat (Literal.valueOf "2.5e1")).IsUnsigned := by
  obtain ⟨hreached, hvalues⟩ := reached_iff_resolves_and_writable (.sample 2.0)
  have hword : Lexeme.IsWord .number "2.5e1".toList :=
    Lexeme.isWord_of_read (by decide : Lexeme.read "2.5e1".toList = _) (by decide)
  have hx : (Expr.var "x").Resolves (Context.sample 2.0).grammar := .var rfl
  have hx' : (Expr.var "x").Writable := .var ⟨'x', [], rfl, by decide, List.forall_mem_nil _⟩
  have hcall : (Expr.call "f" [.var "x"]).Resolves (Context.sample 2.0).grammar :=
    .call rfl (fun _ => rfl) (List.forall_mem_singleton.2 hx)
  have hcall' : (Expr.call "f" [.var "x"]).Writable :=
    .call ⟨'f', [], rfl, by decide, List.forall_mem_nil _⟩ (List.forall_mem_singleton.2 hx')
  refine ⟨(hreached _).2 ⟨?_, ?_⟩, fun h => ?_, hvalues _ hword.mem_language⟩
  · exact .binary (.neg hx) (.binary (.binary hx hx) hcall)
  · exact .binary (.neg hx') (.binary (.binary hx' hx') hcall')
  · rcases ((hreached _).1 h).1 with _ | _ | ⟨hlookup, hadmits, -⟩
    cases hlookup
    exact absurd (hadmits rfl) (by decide)

end Calculator
