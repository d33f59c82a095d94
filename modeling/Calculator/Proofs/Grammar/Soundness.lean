import Calculator.Proofs.Grammar.Run
import Calculator.Proofs.Grammar.Spelling
/-!
# Steps spell tokens

Each step adds its token to those that the machine spells. One lemma for
each way a step can go, assembled in `Machine.Spells.step`; a run of steps
follows by induction (`Machine.Spells.read`), and at the end of the input
the tokens derive the tree (`Machine.Spells.finish`).
-/

namespace Calculator

namespace Machine

variable {grammar : Grammar} {machine after : Machine} {token : Token}
variable {levels : List Level} {pending : Pending} {phase : Phase} {us vs ws : List Token}

/-- A refusal is no step. -/
@[simp] theorem refuse_ne_ok {α : Type} {a : α} : machine.refuse token ≠ .ok a := by
  simp [refuse]

/-- Where an expression begins, what is open was read and nothing after it. -/
theorem spells_start (hlevels : LevelsSpell grammar levels us) :
    Spells grammar ⟨levels, .start, .start⟩ us := by
  have h : Spells grammar ⟨levels, .start, .start⟩ (us ++ ([] ++ [])) :=
    .intro hlevels .start .start rfl
  rwa [List.append_nil, List.append_nil] at h

/-- A token that begins an operand is spelled after what waits for it. -/
theorem spells_of_beginOperand (hlevels : LevelsSpell grammar levels us)
    (hpending : pending.Spells grammar vs)
    (h : beginOperand grammar.context ⟨levels, pending, phase⟩ token = .ok after) :
    after.Spells grammar (us ++ (vs ++ [token])) := by
  unfold beginOperand at h
  split at h
  · rename_i hkind
    cases h
    exact .intro hlevels hpending (.primary (.number hkind)) trivial
  · rename_i hkind
    split at h
    · cases h
    · rename_i hlookup
      cases h
      exact .intro hlevels hpending (.primary (.boundVariable hkind hlookup)) trivial
    · rename_i hlookup
      cases h
      exact .intro hlevels hpending (.callee hkind hlookup) trivial
  · rename_i hkind
    cases h
    exact spells_start (hlevels.group hpending hkind)
  · exact absurd h refuse_ne_ok

/-- A sign is spelled where nothing tighter waits. -/
theorem spells_takeSign (hlevels : LevelsSpell grammar levels us)
    (hpending : pending.Spells grammar vs)
    (hsuits : pending.negated = false ∧ pending.factors = [] ∧ pending.bases = [])
    (hkind : token.kind = .minus) :
    (takeSign ⟨levels, pending, phase⟩).Spells grammar (us ++ (vs ++ [token])) := by
  obtain ⟨sum, quotient, negated, factors, bases⟩ := pending
  obtain ⟨rfl, rfl, rfl⟩ := hsuits
  obtain ⟨hsum, hquotient, hsign, hfactors, hbases⟩ := hpending
  cases hsign
  cases hfactors
  cases hbases
  have : (takeSign ⟨levels, ⟨sum, quotient, false, [], []⟩, phase⟩).Spells grammar _ :=
    .intro hlevels (.intro hsum hquotient (.present hkind) .nil .nil) .operand trivial
  simpa only [List.append_assoc, List.append_nil, List.nil_append] using this

/-- **The end of a call is spelled** as far as the grammar admits the number
of its arguments. -/
theorem spells_call {name opening : Token} {operation : Operation} {arguments : List Expr}
    (hlevels : LevelsSpell grammar levels us) (hpending : pending.Spells grammar vs)
    (hname : name.kind = .identifier)
    (hlookup : grammar.context.lookup name.text = some (.fn operation))
    (hopening : opening.kind = .openParen)
    (harguments : Derives grammar ws (.arguments arguments.reverse))
    (hadmits : grammar.Admits operation arguments.length) (hkind : token.kind = .closeParen) :
    Spells grammar ⟨levels, pending, .complete (.call name.text arguments.reverse) true⟩
      (us ++ (vs ++ name :: opening :: (ws ++ [token]))) :=
  .intro hlevels hpending
    (.primary (.call hname hlookup hopening harguments hkind
      (by rwa [List.length_reverse]))) trivial

/-- The end of a call is a step only if the arguments are as many as the arity says. -/
theorem endCall_eq_ok {name : Token} {arity : Nat} {arguments : List Expr}
    (h : endCall name arity arguments pending levels token = .ok after) :
    arguments.length = arity ∧
      after = ⟨levels, pending, .complete (.call name.text arguments.reverse) true⟩ := by
  unfold endCall at h
  split at h
  · rename_i hlength
    cases h
    exact ⟨hlength, rfl⟩
  · cases h

/-- A step where an expression begins. -/
theorem spells_of_stepStart (hlevels : LevelsSpell grammar levels us)
    (h : stepStart grammar.context ⟨levels, .start, phase⟩ token = .ok after) :
    after.Spells grammar (us ++ [token]) := by
  unfold stepStart at h
  split at h
  · rename_i hkind
    cases h
    exact spells_takeSign hlevels .start ⟨rfl, rfl, rfl⟩ hkind
  · rename_i hkind hcall
    dsimp only at hcall
    subst hcall
    obtain ⟨hlength, rfl⟩ := endCall_eq_ok h
    -- The call was only just opened, so it has no arguments yet.
    cases hlevels with
    | call hlevels hpending hname hlookup hopening harguments =>
      cases harguments
      have := spells_call hlevels hpending hname hlookup hopening .noArguments
        (fun _ => hlength) hkind
      simpa only [List.append_assoc, List.cons_append, List.nil_append] using this
  · exact spells_of_beginOperand hlevels .start h

/-- A step where the operand of an operator is due. -/
theorem spells_of_stepOperand {operator : Kind} {signed : Bool}
    (hlevels : LevelsSpell grammar levels us) (hpending : pending.Spells grammar vs)
    (hsuits : (Phase.operand operator signed).Suits pending)
    (h : stepOperand grammar.context ⟨levels, pending, phase⟩ signed token = .ok after) :
    after.Spells grammar (us ++ (vs ++ [token])) := by
  unfold stepOperand at h
  split at h
  · rename_i hsign
    obtain ⟨hkind, rfl⟩ := hsign
    cases h
    exact spells_takeSign hlevels hpending hsuits hkind
  · exact spells_of_beginOperand hlevels hpending h

/-- A step where the arguments of a function are due. -/
theorem spells_of_stepCallee {name : Token} {operation : Operation}
    (hlevels : LevelsSpell grammar levels us) (hpending : pending.Spells grammar vs)
    (hname : name.kind = .identifier)
    (hlookup : grammar.context.lookup name.text = some (.fn operation))
    (h : stepCallee ⟨levels, pending, phase⟩ name operation.arity token = .ok after) :
    after.Spells grammar (us ++ (vs ++ [name, token])) := by
  unfold stepCallee at h
  split at h
  · rename_i hkind
    cases h
    exact spells_start (hlevels.call hpending hname hlookup hkind .nil)
  · exact absurd h refuse_ne_ok

/-- A step after a whole expression. -/
theorem spells_of_stepExpression {expression : Expr} (hlevels : LevelsSpell grammar levels us)
    (hexpression : Derives grammar vs (.expression expression))
    (h : stepExpression ⟨levels, pending, phase⟩ expression token = .ok after) :
    after.Spells grammar (us ++ (vs ++ [token])) := by
  unfold stepExpression at h
  split at h
  · rename_i hkind hgroup
    dsimp only at hgroup
    subst hgroup
    cases h
    cases hlevels with
    | group hlevels hpending hopening =>
      have : Spells grammar ⟨_, _, .complete expression true⟩ _ :=
        .intro hlevels hpending (.primary (.group hopening hexpression hkind)) trivial
      simpa only [List.append_assoc, List.singleton_append] using this
  · rename_i hkind hcall
    dsimp only at hcall
    subst hcall
    obtain ⟨hlength, rfl⟩ := endCall_eq_ok h
    cases hlevels with
    | call hlevels hpending hname hlookup hopening harguments =>
      have := spells_call hlevels hpending hname hlookup hopening (harguments.last hexpression)
        (fun _ => hlength) hkind
      simpa only [List.append_assoc, List.cons_append] using this
  · rename_i hkind hcall
    dsimp only at hcall
    subst hcall
    cases h
    cases hlevels with
    | call hlevels hpending hname hlookup hopening harguments =>
      have := spells_start
        (hlevels.call hpending hname hlookup hopening (harguments.cons hexpression hkind))
      simpa only [List.append_assoc, List.cons_append] using this
  · exact absurd h refuse_ne_ok

/-- Where the operand of an operator is due, the operator was read last. -/
theorem spells_operand {operator : Kind} {signed : Bool} (hlevels : LevelsSpell grammar levels us)
    (hpending : pending.Spells grammar vs)
    (hsuits : (Phase.operand operator signed).Suits pending) :
    Spells grammar ⟨levels, pending, .operand operator signed⟩ (us ++ vs) := by
  have h : Spells grammar ⟨levels, pending, .operand operator signed⟩ (us ++ (vs ++ [])) :=
    .intro hlevels hpending .operand hsuits
  rwa [List.append_nil] at h

/-- A step after an operand. -/
theorem spells_of_stepComplete {operand : Expr} {bare : Bool}
    (hlevels : LevelsSpell grammar levels us) (hpending : pending.Spells grammar vs)
    (hoperand : Derives grammar ws (.postfixed operand))
    (hbare : bare = true → Derives grammar ws (.primary operand))
    (h : stepComplete grammar.context ⟨levels, pending, phase⟩ operand bare token = .ok after) :
    after.Spells grammar (us ++ (vs ++ (ws ++ [token]))) := by
  unfold stepComplete at h
  dsimp only at h
  split at h
  · rename_i hkind
    split at h
    · rename_i htrue
      cases h
      exact .intro hlevels hpending (.postfixed (.factorial (hbare htrue) hkind)) trivial
    · exact absurd h refuse_ne_ok
  · rename_i hkind
    cases h
    have := hpending.raise hoperand hkind
    exact spells_operand hlevels this trivial
  · rename_i hkind
    cases h
    exact spells_operand hlevels (hpending.extendTerm hoperand (by simp [termOperators, hkind]))
      ⟨rfl, rfl, rfl⟩
  · rename_i hkind
    cases h
    exact spells_operand hlevels (hpending.extendTerm hoperand (by simp [termOperators, hkind]))
      ⟨rfl, rfl, rfl⟩
  · rename_i hkind
    cases h
    exact spells_operand hlevels (hpending.extendSum hoperand (by simp [sumOperators, hkind]))
      ⟨rfl, rfl, rfl⟩
  · rename_i hkind
    cases h
    exact spells_operand hlevels (hpending.extendSum hoperand (by simp [sumOperators, hkind]))
      ⟨rfl, rfl, rfl⟩
  · have := spells_of_beginOperand hlevels (hpending.juxtapose hoperand) h
    simpa only [List.append_assoc] using this
  · have := spells_of_beginOperand hlevels (hpending.juxtapose hoperand) h
    simpa only [List.append_assoc] using this
  · have := spells_of_beginOperand hlevels (hpending.juxtapose hoperand) h
    simpa only [List.append_assoc] using this
  · have := spells_of_stepExpression hlevels (hpending.expression hoperand) h
    simpa only [List.append_assoc] using this

/-- **Each step spells one token more.** -/
theorem Spells.step (h : machine.Spells grammar us)
    (hstep : machine.step grammar.context token = .ok after) :
    after.Spells grammar (us ++ [token]) := by
  obtain ⟨hlevels, hpending, hphase, hsuits⟩ := h
  obtain ⟨levels, pending, phase⟩ := machine
  simp only [List.append_assoc]
  -- What the phase spelled tells it apart: each phase has a step of its own.
  cases hphase with
  | start =>
    obtain rfl : pending = .start := hsuits
    have := hpending.eq_nil_of_start
    subst this
    exact spells_of_stepStart hlevels hstep
  | operand => exact spells_of_stepOperand hlevels hpending hsuits hstep
  | callee hname hlookup => exact spells_of_stepCallee hlevels hpending hname hlookup hstep
  | primary hoperand =>
    exact spells_of_stepComplete hlevels hpending (.ofPrimary hoperand) (fun _ => hoperand) hstep
  | postfixed hoperand =>
    exact spells_of_stepComplete hlevels hpending hoperand (fun h => absurd h (by simp)) hstep

/-- **A run spells all its tokens.** -/
theorem Spells.read (h : machine.Spells grammar us)
    (hread : machine.read grammar.context vs = .ok after) : after.Spells grammar (us ++ vs) := by
  induction vs generalizing machine us with
  | nil =>
    cases hread
    rwa [List.append_nil]
  | cons token vs ih =>
    obtain ⟨next, hstep, hread⟩ := read_cons_eq_ok.1 hread
    have := ih (h.step hstep) hread
    rwa [List.append_assoc, List.singleton_append] at this

/-- **At the end of the input the tokens derive the tree.** -/
theorem Spells.finish {tree : Expr} (h : machine.Spells grammar us)
    (hfinish : machine.finish token = .ok tree) : Derives grammar us (.expression tree) := by
  obtain ⟨hlevels, hpending, hphase, -⟩ := h
  obtain ⟨levels, pending, phase⟩ := machine
  unfold Machine.finish at hfinish
  split at hfinish
  · rename_i hcomplete hclosed
    dsimp only at hcomplete hclosed
    subst hcomplete hclosed
    cases hfinish
    cases hlevels
    exact hpending.expression hphase.derives
  · exact absurd hfinish refuse_ne_ok

end Machine

end Calculator
