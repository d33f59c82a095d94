import Calculator.Proofs.Grammar.Soundness
/-!
# Completions

Whatever a machine has read, some tokens make it a sentence, as long as
nobody counts arguments (`Machine.Spells.completable`). An operand that is
due is completed by a number, a function by empty parentheses, and then all
that is open is closed, the innermost parenthesis first
(`LevelsSpell.completable`).
-/

namespace Calculator

/-- **Tokens that a sentence begins with**, arguments not being counted. -/
def Completable (context : Context) (tokens : List Token) : Prop :=
  ∃ rest tree, Derives context.laxGrammar (tokens ++ rest) (.expression tree)

/-- A number, to stand where an operand is due. -/
def Token.one : Token := ⟨.number, 0, "1"⟩

/-- A parenthesis that opens. -/
def Token.opening : Token := ⟨.openParen, 0, "("⟩

/-- And one that closes. -/
def Token.closing : Token := ⟨.closeParen, 0, ")"⟩

variable {context : Context} {us vs ws : List Token}

/-- What can be completed after some more tokens can be completed before them. -/
theorem Completable.of_append (h : Completable context (us ++ vs)) : Completable context us := by
  obtain ⟨rest, tree, hderives⟩ := h
  rw [List.append_assoc] at hderives
  exact ⟨vs ++ rest, tree, hderives⟩

/-- **An expression inside open parentheses** is completed by closing them. -/
theorem LevelsSpell.completable {levels : List Level} {expression : Expr}
    (h : LevelsSpell context.laxGrammar levels us)
    (hexpression : Derives context.laxGrammar vs (.expression expression)) :
    Completable context (us ++ vs) := by
  -- Closing the innermost parenthesis leaves an expression one level further out.
  induction h generalizing vs expression with
  | nil =>
    refine ⟨[], expression, ?_⟩
    rwa [List.nil_append, List.append_nil]
  | @group levels outer opening us ws _ houter hopening ih =>
    have hgroup :
        Derives context.laxGrammar (opening :: (vs ++ [.closing])) (.primary expression) :=
      .group hopening hexpression rfl
    have hclosed := ih (houter.expression (.ofPrimary hgroup))
    have hopen : Completable context (us ++ (ws ++ [opening]) ++ vs ++ [.closing]) := by
      simpa only [List.append_assoc, List.singleton_append, List.cons_append, List.nil_append]
        using hclosed
    exact hopen.of_append
  | @call levels outer name opening operation arguments us ws xs _ houter hname hlookup hopening
      harguments ih =>
    have hcall : Derives context.laxGrammar (name :: opening :: (xs ++ vs ++ [.closing]))
        (.primary (.call name.text (expression :: arguments).reverse)) :=
      .call hname hlookup hopening (harguments.last hexpression) rfl
        (context.laxGrammar_admits _ _)
    have hclosed := ih (houter.expression (.ofPrimary hcall))
    have hopen : Completable context (us ++ (ws ++ name :: opening :: xs) ++ vs ++ [.closing]) := by
      simpa only [List.append_assoc, List.cons_append, List.nil_append] using hclosed
    exact hopen.of_append

/-- What a phase spells is the beginning of an operand. -/
theorem Phase.Spells.exists_operand {phase : Phase} (h : phase.Spells context.laxGrammar ws) :
    ∃ rest operand, Derives context.laxGrammar (ws ++ rest) (.postfixed operand) := by
  cases h with
  | start => exact ⟨[.one], _, .ofPrimary (.number rfl)⟩
  | operand => exact ⟨[.one], _, .ofPrimary (.number rfl)⟩
  | @callee name operation hname hlookup =>
    have hcall : Derives context.laxGrammar (name :: .opening :: ([] ++ [.closing]))
        (.primary (.call name.text [])) :=
      .call hname hlookup rfl .noArguments rfl (context.laxGrammar_admits _ _)
    exact ⟨[.opening, .closing], _, .ofPrimary hcall⟩
  | primary hoperand =>
    rw [← List.append_nil ws] at hoperand
    exact ⟨[], _, .ofPrimary hoperand⟩
  | postfixed hoperand =>
    rw [← List.append_nil ws] at hoperand
    exact ⟨[], _, hoperand⟩

/-- **What a machine has read can be completed.** -/
theorem Machine.Spells.completable {machine : Machine} (h : machine.Spells context.laxGrammar us) :
    Completable context us := by
  obtain ⟨hlevels, hpending, hphase, -⟩ := h
  obtain ⟨rest, operand, hoperand⟩ := hphase.exists_operand
  have hcompletable := hlevels.completable (hpending.expression hoperand)
  rw [← List.append_assoc, ← List.append_assoc] at hcompletable
  rw [← List.append_assoc]
  exact hcompletable.of_append

end Calculator
