import Calculator.Proofs.Grammar.Derivation
/-!
# What a machine has read

A machine spells the tokens that it went over: each part that waits for an
operand is a phrase of the grammar, and the parts stand in the order in
which they were read. A step keeps this (`Machine.Spells.step`), so the
tokens of a complete expression derive its tree (`Machine.Spells.finish`).
-/

namespace Calculator

variable {grammar : Grammar}

/-! ## What waits for an operand -/

/-- The tokens of a left operand that waits with its operator, if one does. -/
inductive LeftSpells (grammar : Grammar) (phrase : Expr → Phrase)
    (operators : List (Kind × BinaryOp)) : Option (Expr × BinaryOp) → List Token → Prop
  | absent : LeftSpells grammar phrase operators none []
  | present {ts : List Token} {sign : Token} {left : Expr} {op : BinaryOp} :
      Derives grammar ts (phrase left) → (sign.kind, op) ∈ operators →
      LeftSpells grammar phrase operators (some (left, op)) (ts ++ [sign])

/-- The tokens of a sign, if there is one. -/
inductive SignSpells : Bool → List Token → Prop
  | absent : SignSpells false []
  | present {sign : Token} : sign.kind = .minus → SignSpells true [sign]

/-- The tokens of juxtaposed operands, the last of which is listed first. -/
inductive FactorsSpell (grammar : Grammar) : List Expr → List Token → Prop
  | nil : FactorsSpell grammar [] []
  | cons {factors : List Expr} {us vs : List Token} {factor : Expr} :
      FactorsSpell grammar factors us → Derives grammar vs (.power factor) →
      FactorsSpell grammar (factor :: factors) (us ++ vs)

/-- The tokens of bases, each with its caret; the last is listed first. -/
inductive BasesSpell (grammar : Grammar) : List Expr → List Token → Prop
  | nil : BasesSpell grammar [] []
  | cons {bases : List Expr} {us vs : List Token} {base : Expr} {caret : Token} :
      BasesSpell grammar bases us → Derives grammar vs (.postfixed base) → caret.kind = .caret →
      BasesSpell grammar (base :: bases) (us ++ (vs ++ [caret]))

/-- **What waits was read level by level**, the loosest first. -/
inductive Pending.Spells (grammar : Grammar) : Pending → List Token → Prop
  | intro {pending : Pending} {sums quotients signs factors bases : List Token} :
      LeftSpells grammar .expression sumOperators pending.sum sums →
      LeftSpells grammar .term termOperators pending.quotient quotients →
      SignSpells pending.negated signs → FactorsSpell grammar pending.factors factors →
      BasesSpell grammar pending.bases bases →
      Pending.Spells grammar pending (sums ++ (quotients ++ (signs ++ (factors ++ bases))))

/-- Nothing waits at the start, and no token was read. -/
theorem Pending.Spells.start : Pending.Spells grammar .start [] := by
  have h : Pending.Spells grammar .start ([] ++ ([] ++ ([] ++ ([] ++ [])))) :=
    .intro .absent .absent .absent .nil .nil
  exact h

/-- And only then none was. -/
theorem Pending.Spells.eq_nil_of_start {us : List Token} (h : Pending.Spells grammar .start us) :
    us = [] := by
  obtain ⟨hsum, hquotient, hsign, hfactors, hbases⟩ := h
  cases hsum
  cases hquotient
  cases hsign
  cases hfactors
  cases hbases
  rfl

/-! ## Joining an operand

An operand joins the tightest level first, and what results joins the next. -/

/-- An operand that follows bases makes a power with them. -/
theorem BasesSpell.power {bases : List Expr} {us vs : List Token} {operand : Expr}
    (h : BasesSpell grammar bases us) (hoperand : Derives grammar vs (.power operand)) :
    Derives grammar (us ++ vs)
      (.power (bases.foldl (fun exponent base => .binary .pow base exponent) operand)) := by
  induction h generalizing vs operand with
  | nil => exact hoperand
  | cons _ hbase hcaret ih =>
    rw [List.append_assoc, List.append_assoc, List.singleton_append]
    exact ih (.exponentiation hbase hcaret hoperand)

/-- A power that follows juxtaposed operands makes a product with them. -/
theorem FactorsSpell.product {factors : List Expr} {us vs : List Token} {operand : Expr}
    (h : FactorsSpell grammar factors us) (hoperand : Derives grammar vs (.product operand)) :
    Derives grammar (us ++ vs)
      (.product (factors.foldl (fun right left => .binary .mul left right) operand)) := by
  induction h generalizing vs operand with
  | nil => exact hoperand
  | cons _ hfactor ih =>
    rw [List.append_assoc]
    exact ih (.juxtaposition hfactor hoperand)

/-- A product with its sign is a factor. -/
theorem SignSpells.factor {negated : Bool} {us vs : List Token} {operand : Expr}
    (h : SignSpells negated us) (hoperand : Derives grammar vs (.product operand)) :
    Derives grammar (us ++ vs) (.factor (if negated then .neg operand else operand)) := by
  cases h with
  | absent => exact .ofProduct hoperand
  | present hsign => exact .negation hsign hoperand

/-- A factor joins the left operand of `*` or `/`, if one waits. -/
theorem LeftSpells.term {left : Option (Expr × BinaryOp)} {us vs : List Token} {operand : Expr}
    (h : LeftSpells grammar .term termOperators left us)
    (hoperand : Derives grammar vs (.factor operand)) :
    Derives grammar (us ++ vs) (.term (Pending.join left operand)) := by
  cases h with
  | absent => exact .ofFactor hoperand
  | present hleft hsign =>
    rw [List.append_assoc, List.singleton_append]
    exact .quotient hleft hsign hoperand

/-- A term joins the left operand of `+` or `-`, if one waits. -/
theorem LeftSpells.expression {left : Option (Expr × BinaryOp)} {us vs : List Token}
    {operand : Expr} (h : LeftSpells grammar .expression sumOperators left us)
    (hoperand : Derives grammar vs (.term operand)) :
    Derives grammar (us ++ vs) (.expression (Pending.join left operand)) := by
  cases h with
  | absent => exact .ofTerm hoperand
  | present hleft hsign =>
    rw [List.append_assoc, List.singleton_append]
    exact .sum hleft hsign hoperand

namespace Pending

variable {pending : Pending} {us vs : List Token} {operand : Expr}

/-- **An operand completes the expression**, and the term at its end. The
tokens before that term are those of the waiting sum. -/
theorem Spells.complete (h : pending.Spells grammar us)
    (hoperand : Derives grammar vs (.postfixed operand)) :
    ∃ sums rest, us ++ vs = sums ++ rest ∧
      LeftSpells grammar .expression sumOperators pending.sum sums ∧
      Derives grammar rest (.term (pending.term operand)) := by
  obtain ⟨hsum, hquotient, hsign, hfactors, hbases⟩ := h
  have hpower := hbases.power (.ofPostfixed hoperand)
  have hproduct := hfactors.product (.ofPower hpower)
  have hterm := hquotient.term (hsign.factor hproduct)
  refine ⟨_, _, ?_, hsum, hterm⟩
  simp only [List.append_assoc]

/-- The expression that an operand completes is derived. -/
theorem Spells.expression (h : pending.Spells grammar us)
    (hoperand : Derives grammar vs (.postfixed operand)) :
    Derives grammar (us ++ vs) (.expression (pending.expression operand)) := by
  obtain ⟨sums, rest, heq, hsum, hterm⟩ := h.complete hoperand
  rw [heq]
  exact hsum.expression hterm

/-- Raising the operand to the next one reads a caret. -/
theorem Spells.raise {caret : Token} (h : pending.Spells grammar us)
    (hoperand : Derives grammar vs (.postfixed operand)) (hcaret : caret.kind = .caret) :
    (pending.raise operand).Spells grammar (us ++ (vs ++ [caret])) := by
  obtain ⟨hsum, hquotient, hsign, hfactors, hbases⟩ := h
  have : (pending.raise operand).Spells grammar _ :=
    .intro hsum hquotient hsign hfactors (hbases.cons hoperand hcaret)
  simpa only [List.append_assoc] using this

/-- Juxtaposing the operand with the next one reads nothing more. -/
theorem Spells.juxtapose (h : pending.Spells grammar us)
    (hoperand : Derives grammar vs (.postfixed operand)) :
    (pending.juxtapose operand).Spells grammar (us ++ vs) := by
  obtain ⟨hsum, hquotient, hsign, hfactors, hbases⟩ := h
  have : (pending.juxtapose operand).Spells grammar _ :=
    .intro hsum hquotient hsign (hfactors.cons (hbases.power (.ofPostfixed hoperand))) .nil
  simpa only [List.append_assoc, List.append_nil] using this

/-- An operator of terms reads the term so far as its left operand. -/
theorem Spells.extendTerm {sign : Token} {op : BinaryOp} (h : pending.Spells grammar us)
    (hoperand : Derives grammar vs (.postfixed operand))
    (hsign : (sign.kind, op) ∈ termOperators) :
    (pending.extendTerm operand op).Spells grammar (us ++ (vs ++ [sign])) := by
  obtain ⟨sums, rest, heq, hsum, hterm⟩ := h.complete hoperand
  have : (pending.extendTerm operand op).Spells grammar _ :=
    .intro hsum (.present hterm hsign) .absent .nil .nil
  simpa only [← List.append_assoc, heq, List.append_nil] using this

/-- An operator of sums reads the expression so far as its left operand. -/
theorem Spells.extendSum {sign : Token} {op : BinaryOp} (h : pending.Spells grammar us)
    (hoperand : Derives grammar vs (.postfixed operand))
    (hsign : (sign.kind, op) ∈ sumOperators) :
    (pending.extendSum operand op).Spells grammar (us ++ (vs ++ [sign])) := by
  have : (pending.extendSum operand op).Spells grammar _ :=
    .intro (.present (h.expression hoperand) hsign) .absent .absent .nil .nil
  simpa only [List.append_assoc, List.append_nil] using this

end Pending

/-! ## Open parentheses -/

/-- The tokens of complete arguments, each with its comma; the last is listed first. -/
inductive ArgumentsSpell (grammar : Grammar) : List Expr → List Token → Prop
  | nil : ArgumentsSpell grammar [] []
  | cons {arguments : List Expr} {us vs : List Token} {argument : Expr} {comma : Token} :
      ArgumentsSpell grammar arguments us → Derives grammar vs (.expression argument) →
      comma.kind = .comma → ArgumentsSpell grammar (argument :: arguments) (us ++ (vs ++ [comma]))

/-- Complete arguments and one more are arguments. -/
theorem ArgumentsSpell.last {arguments : List Expr} {us vs : List Token} {argument : Expr}
    (h : ArgumentsSpell grammar arguments us) (hlast : Derives grammar vs (.expression argument)) :
    Derives grammar (us ++ vs) (.arguments (argument :: arguments).reverse) := by
  induction h generalizing vs argument with
  | nil => exact .firstArgument hlast
  | cons _ hargument hcomma ih =>
    rw [List.append_assoc, List.append_assoc, List.singleton_append, ← List.append_assoc,
      List.reverse_cons]
    exact .nextArgument (ih hargument) (by simp) hcomma hlast

/-- **The open parentheses and all that waits outside them** were read from
the outermost in. -/
inductive LevelsSpell (grammar : Grammar) : List Level → List Token → Prop
  | nil : LevelsSpell grammar [] []
  | group {levels : List Level} {outer : Pending} {opening : Token} {us vs : List Token} :
      LevelsSpell grammar levels us → outer.Spells grammar vs → opening.kind = .openParen →
      LevelsSpell grammar (⟨.group, outer⟩ :: levels) (us ++ (vs ++ [opening]))
  | call {levels : List Level} {outer : Pending} {name opening : Token} {operation : Operation}
      {arguments : List Expr} {us vs ws : List Token} :
      LevelsSpell grammar levels us → outer.Spells grammar vs → name.kind = .identifier →
      grammar.context.lookup name.text = some (.fn operation) → opening.kind = .openParen →
      ArgumentsSpell grammar arguments ws →
      LevelsSpell grammar (⟨.call name operation.arity arguments, outer⟩ :: levels)
        (us ++ (vs ++ name :: opening :: ws))

/-- The tokens of what comes after the last operator or parenthesis. -/
inductive Phase.Spells (grammar : Grammar) : Phase → List Token → Prop
  | start : Phase.Spells grammar .start []
  | operand {operator : Kind} {signed : Bool} : Phase.Spells grammar (.operand operator signed) []
  | callee {name : Token} {operation : Operation} : name.kind = .identifier →
      grammar.context.lookup name.text = some (.fn operation) →
      Phase.Spells grammar (.callee name operation.arity) [name]
  | primary {operand : Expr} {ts : List Token} : Derives grammar ts (.primary operand) →
      Phase.Spells grammar (.complete operand true) ts
  | postfixed {operand : Expr} {ts : List Token} : Derives grammar ts (.postfixed operand) →
      Phase.Spells grammar (.complete operand false) ts

/-- A complete operand is derived, whether or not a factorial may be taken of it. -/
theorem Phase.Spells.derives {operand : Expr} {bare : Bool} {ts : List Token}
    (h : (Phase.complete operand bare).Spells grammar ts) :
    Derives grammar ts (.postfixed operand) := by
  cases h with
  | primary hoperand => exact .ofPrimary hoperand
  | postfixed hoperand => exact hoperand

/-- A sign may come next only where nothing waits that binds tighter. -/
def Phase.Suits (pending : Pending) : Phase → Prop
  | .start => pending = .start
  | .operand _ true => pending.negated = false ∧ pending.factors = [] ∧ pending.bases = []
  | _ => True

/-- **A machine spells the tokens that it went over.** -/
inductive Machine.Spells (grammar : Grammar) : Machine → List Token → Prop
  | intro {machine : Machine} {us vs ws : List Token} :
      LevelsSpell grammar machine.levels us → machine.pending.Spells grammar vs →
      machine.phase.Spells grammar ws → machine.phase.Suits machine.pending →
      Machine.Spells grammar machine (us ++ (vs ++ ws))

/-- Signs may come next only as the parts that wait allow. -/
theorem Machine.Spells.suits {machine : Machine} {ts : List Token}
    (h : machine.Spells grammar ts) : machine.phase.Suits machine.pending := by
  obtain ⟨-, -, -, hsuits⟩ := h
  exact hsuits

end Calculator
