import Calculator.Proofs.Grammar.Pull
/-!
# Routines and machines agree

Each routine of the descent does as a machine does that stands where the
routine is called (`Machine.Tracks`), from operands up to expressions. Powers,
products and the operands of a chain are by what is left of the source; a
parenthesis leads back to expressions, where less is left, and
`Machine.tracksExpression` closes the circle. So of any source of tokens the
routines say what the machine says (`Machine.whole_eq_pull`).
-/

namespace Calculator

namespace Machine

open TokenSource Descent

variable {σ : Type} [TokenSource σ] {β : Type} {s rest : σ}
variable {context : Context} {machine : Machine} {token : Token}
variable {levels : List Level} {pending : Pending}
variable {sum quotient : Option (Expr × BinaryOp)}

/-- **A routine takes an operand**: the machine may as well have read its tree
as one operand, and the next token is none that the routine goes on with. -/
def Takes (levels : List Level) (pending : Pending) (kinds : List Kind) (parsed : Parsed s)
    (after : Machine) (rest : σ) : Prop :=
  rest = parsed.rest ∧ EndsBefore kinds parsed.rest ∧
    after = ⟨levels, pending, .complete parsed.tree false⟩

/-- An operand was read that is bare. -/
def TakesBare (levels : List Level) (pending : Pending) (taken : Taken s Expr)
    (after : Machine) (rest : σ) : Prop :=
  rest = taken.rest ∧ after = ⟨levels, pending, .complete taken.value true⟩

/-- Expressions are read from here as the machine reads them. -/
def TracksExpression (context : Context) (s : σ) : Prop :=
  ∀ machine : Machine, machine.AwaitsSign .start → machine.Begins context true s →
    machine.Tracks context s (Takes machine.levels .start expressionKinds) (expression context s)

/-- And so they are from wherever less is left. -/
def TracksLater (context : Context) (s : σ) : Prop :=
  ∀ s' : σ, left s' < left s → TracksExpression context s'

/-- Where less is left already, still less will be later. -/
theorem TracksLater.mono {s' : σ} (h : TracksLater context s) (hle : left s' ≤ left s) :
    TracksLater context s' :=
  fun later hlater => h later (Nat.lt_of_lt_of_le hlater hle)

/-! ## Operands -/

/-- The parenthesis that ends a call is the last step of it. -/
theorem tracks_applied {name : Token} {arity : Nat} {trees : List Expr}
    {post : β → Machine → σ → Prop} {f : Expr → Outcome β} {outer : Pending}
    (hin : InCall name arity outer levels trees machine)
    (hnext : TokenSource.next s = (.ok token, rest)) (hkind : token.kind = .closeParen)
    (h : ∀ tree, Tracks context ⟨levels, outer, .complete tree true⟩ rest post (f tree)) :
    machine.Tracks context s post (applied name arity trees token >>= f) := by
  have hstep : machine.step context token =
      endCall name arity trees.reverse outer levels token :=
    step_closeCall hin hkind
  rw [endCall, List.length_reverse, List.reverse_reverse] at hstep
  unfold applied
  split
  · rename_i hlength
    rw [if_pos hlength] at hstep
    exact .of_step hnext (by simp [hkind]) hstep (h _)
  · rename_i hlength
    rw [if_neg hlength] at hstep
    exact .of_step_error hnext (by simp [hkind]) hstep

/-- **The arguments of a call** are read as the machine reads them. -/
theorem tracks_arguments {name : Token} {arity : Nat} {outer : Pending} {origin : σ}
    {trees : List Expr} (hlater : TracksLater context origin) (hlt : left s < left origin)
    (hbegins : Begins context ⟨⟨.call name arity trees, outer⟩ :: levels, .start, .start⟩ true s) :
    Tracks context ⟨⟨.call name arity trees, outer⟩ :: levels, .start, .start⟩ s
      (TakesBare levels outer) (arguments context name arity trees.reverse s) := by
  induction hleft : left s using Nat.strongRecOn generalizing s trees with
  | ind n ih =>
  subst hleft
  rw [arguments]
  refine (hlater s hlt _ .start hbegins).bind ?_
  rintro argument _ _ ⟨rfl, hends, rfl⟩
  refine .next fun token hnext => ?_
  have hargument : left token.rest < left s :=
    Nat.lt_of_le_of_lt token.left_le argument.left_lt
  split
  · rename_i hkind
    refine .of_step hnext (by simp [hkind]) (step_comma hkind) ?_
    have hbegins : Begins context
        ⟨⟨.call name arity (argument.tree :: trees), outer⟩ :: levels, .start, .start⟩ true
        token.rest :=
      begins_of_start rfl fun _ _ _ _ _ _ _ _ => by simp
    have hih := ih _ hargument (Nat.lt_trans hargument hlt) hbegins rfl
    rw [List.reverse_cons] at hih
    refine hih.bind ?_
    rintro called _ _ ⟨rfl, rfl⟩
    exact .pure ⟨rfl, rfl⟩
  · rename_i hkind
    have hin : InCall name arity outer levels
        (trees.reverse ++ [Pending.start.expression argument.tree])
        ⟨⟨.call name arity trees, outer⟩ :: levels, .start, .complete argument.tree false⟩ :=
      .complete
    exact tracks_applied hin hnext hkind fun tree => .pure ⟨rfl, rfl⟩
  · rename_i hcomma hclose
    have hrefuses : Refuses context
        ⟨⟨.call name arity trees, outer⟩ :: levels, .start, .complete argument.tree false⟩
        token.value := by
      refine ⟨?_, rfl⟩
      exact step_eq_refuse (hends _ _ hnext) (fun h => absurd h hclose) (fun h => absurd h hcomma)
    exact hrefuses.pull hnext

/-- **A call** is read as the machine reads it. -/
theorem tracks_call {name : Token} {arity : Nat} {origin : σ}
    (hlater : TracksLater context origin) (hlt : left s < left origin) :
    Tracks context ⟨levels, pending, .callee name arity⟩ s (TakesBare levels pending)
      (call context name arity s) := by
  rw [call]
  refine .expect (fun opening rest hle hnext hkind => ?_) fun token rest hnext hkind => ?_
  · have hstep : step context ⟨levels, pending, .callee name arity⟩ opening =
        .ok ⟨⟨.call name arity [], pending⟩ :: levels, .start, .start⟩ := by
      simp [step, stepCallee, hkind]
    refine .of_step hnext (by simp [hkind]) hstep ?_
    refine .nextIf (fun closing after hle' hnext hkind => ?_) fun token after hnext hkind => ?_
    · exact tracks_applied .opened hnext hkind fun tree => .pure ⟨rfl, rfl⟩
    · have hbegins : Begins context ⟨⟨.call name arity [], pending⟩ :: levels, .start, .start⟩
          true rest := by
        refine begins_of_start rfl fun other after' hnext' hclose => ?_
        obtain ⟨rfl, -⟩ := next_unique hnext hnext'
        exact absurd hclose hkind
      refine (tracks_arguments hlater (Nat.lt_of_le_of_lt hle hlt) hbegins).bind ?_
      rintro called _ _ ⟨rfl, rfl⟩
      exact .pure ⟨rfl, rfl⟩
  · have hrefuses : Refuses context ⟨levels, pending, .callee name arity⟩ token :=
      refuses_of_callee rfl hkind
    exact hrefuses.pull hnext

/-- **An identifier** is read as the machine reads it, which has yet to read its name. -/
theorem tracks_identifier {rest origin : σ} (hlater : TracksLater context origin)
    (hlt : left rest < left origin) (hawaits : machine.Awaits pending)
    (hnext : TokenSource.next s = (.ok token, rest)) (hkind : token.kind = .identifier) :
    machine.Tracks context s (TakesBare machine.levels pending)
      (identifier context token rest) := by
  have hstep : machine.step context token =
      beginOperand context ⟨machine.levels, pending, machine.phase⟩ token :=
    step_of_awaits hawaits (by simp [hkind, Kind.startsOperand])
  rw [identifier]
  split
  · rename_i hlookup
    simp only [beginOperand, hkind, hlookup] at hstep
    exact .of_step_error hnext (by simp [hkind]) hstep
  · rename_i hlookup
    simp only [beginOperand, hkind, hlookup] at hstep
    exact .of_step hnext (by simp [hkind]) hstep (.pure ⟨rfl, rfl⟩)
  · rename_i hlookup
    simp only [beginOperand, hkind, hlookup] at hstep
    exact .of_step hnext (by simp [hkind]) hstep (tracks_call hlater hlt)

/-- What is wrong where an expression has to begin. -/
theorem complaint_start : start.complaint token =
    if token.kind = .endOfInput then .unexpectedEnd
    else .unexpectedToken operandKinds token.kind :=
  rfl

/-- **An operand** is read as the machine reads it. -/
theorem tracks_primary (hlater : TracksLater context s)
    (hawaits : machine.Awaits pending) (hbegins : machine.Begins context false s) :
    machine.Tracks context s
      (fun parsed after rest => rest = parsed.rest ∧
        after = ⟨machine.levels, pending, .complete parsed.tree true⟩) (primary context s) := by
  rw [primary]
  refine .next fun token hnext => ?_
  split
  · rename_i hkind
    have hstep : machine.step context token.value = .ok ⟨machine.levels, pending,
        .complete (.num (Literal.valueOf token.value.text)) true⟩ := by
      rw [step_of_awaits hawaits (by simp [hkind, Kind.startsOperand])]
      simp [beginOperand, hkind, completed]
    rw [number, if_pos (TokenSource.isNumber hnext hkind)]
    exact .of_step hnext (by simp [hkind]) hstep (.pure ⟨rfl, rfl⟩)
  · rename_i hkind
    refine (tracks_identifier hlater ?_ hawaits hnext hkind).bind ?_
    · exact token.left_lt (by simp [hkind])
    · rintro named _ _ ⟨rfl, rfl⟩
      exact .pure ⟨rfl, rfl⟩
  · rename_i hkind
    have hlt : left token.rest < left s := token.left_lt (by simp [hkind])
    have hstep : machine.step context token.value =
        .ok ⟨⟨.group, pending⟩ :: machine.levels, .start, .start⟩ := by
      rw [step_of_awaits hawaits (by simp [hkind, Kind.startsOperand])]
      simp [beginOperand, hkind]
    refine .of_step hnext (by simp [hkind]) hstep ?_
    refine (hlater _ hlt _ .start (begins_of_start rfl fun _ _ _ _ => by simp)).bind ?_
    rintro inner _ _ ⟨rfl, hends, rfl⟩
    refine .expect (fun closing rest hle hnext hkind => ?_) fun other rest hnext hkind => ?_
    · exact .of_step hnext (by simp [hkind]) (step_closeGroup hkind) (.pure ⟨rfl, rfl⟩)
    · have hrefuses : Refuses context
          ⟨⟨.group, pending⟩ :: machine.levels, .start, .complete inner.tree false⟩ other := by
        refine ⟨?_, rfl⟩
        exact step_eq_refuse (hends _ _ hnext) (fun h => absurd h hkind) (by simp)
      exact hrefuses.pull hnext
  · rename_i hkind
    have hpull := hbegins _ _ hnext (by simp [hkind, Kind.startsOperand])
    rwa [complaint_start, if_pos hkind] at hpull
  · rename_i hnumber hidentifier hopen hend
    have hstarts : token.value.kind ∉ operandKinds := by
      simp only [operandKinds, List.mem_cons, List.not_mem_nil, or_false, not_or]
      exact ⟨hnumber, hidentifier, hopen⟩
    have hpull := hbegins _ _ hnext (by simpa using fun h => hstarts (mem_operandKinds.2 h))
    rwa [complaint_start, if_neg hend] at hpull

/-! ## Levels -/

/-- An operand, or its factorial. -/
theorem tracks_postfixed (hlater : TracksLater context s)
    (hawaits : machine.Awaits pending) (hbegins : machine.Begins context false s) :
    machine.Tracks context s (Takes machine.levels pending []) (postfixed context s) := by
  rw [postfixed]
  refine (tracks_primary hlater hawaits hbegins).bind ?_
  rintro operand _ _ ⟨rfl, rfl⟩
  refine .nextIf (fun bang rest hle hnext hkind => ?_) fun token rest hnext hkind => ?_
  · exact .of_step hnext (by simp [hkind]) (step_bang hkind) (.pure ⟨rfl, nofun, rfl⟩)
  · have hends : EndsBefore [.bang] operand.rest :=
      endsBefore_of_next hnext (by simpa using hkind)
    exact .of_alike alike_bare hends (.pure ⟨rfl, nofun, rfl⟩)

/-- **A power** is read as the machine reads it. -/
theorem tracks_power (hlater : TracksLater context s)
    (hawaits : machine.Awaits pending) (hbegins : machine.Begins context false s) :
    machine.Tracks context s (Takes machine.levels pending powerKinds) (power context s) := by
  induction hleft : left s using Nat.strongRecOn generalizing s machine pending with
  | ind n ih =>
  subst hleft
  rw [power]
  refine (tracks_postfixed hlater hawaits hbegins).bind ?_
  rintro base _ _ ⟨rfl, -, rfl⟩
  refine .nextIf (fun caret rest hle hnext hkind => ?_) fun token rest hnext hkind => ?_
  · refine .of_step hnext (by simp [hkind]) (step_caret hkind) ?_
    refine .expectOperand (by rw [hkind]) fun hbegins => ?_
    have hlt : left rest < left s := Nat.lt_of_le_of_lt hle base.left_lt
    refine (ih _ hlt (hlater.mono (Nat.le_of_lt hlt)) .operand hbegins rfl).bind ?_
    rintro exponent _ _ ⟨rfl, hends, rfl⟩
    exact .of_alike alike_power hends (.pure ⟨rfl, hends, rfl⟩)
  · exact .pure ⟨rfl, endsBefore_of_next hnext (by simpa [powerKinds] using hkind), rfl⟩

/-- **A product** is read as the machine reads it. -/
theorem tracks_product (hlater : TracksLater context s)
    (hawaits : machine.Awaits pending) (hbases : pending.bases = [])
    (hbegins : machine.Begins context false s) :
    machine.Tracks context s (Takes machine.levels pending productKinds) (product context s) := by
  induction hleft : left s using Nat.strongRecOn generalizing s machine pending with
  | ind n ih =>
  subst hleft
  rw [product]
  refine (tracks_power hlater hawaits hbegins).bind ?_
  rintro first _ _ ⟨rfl, hends, rfl⟩
  refine .peek fun token rest hnext => ?_
  dsimp only
  split
  · rename_i hstarts
    have hlt := first.left_lt
    refine (ih _ hlt (hlater.mono (Nat.le_of_lt hlt)) .complete rfl
      (begins_of_next hnext (.inl hstarts)) rfl).bind ?_
    rintro others _ _ ⟨rfl, hends, rfl⟩
    exact .of_alike (alike_product hbases) hends (.pure ⟨rfl, hends, rfl⟩)
  · rename_i hstarts
    have hoperand : EndsBefore operandKinds first.rest :=
      endsBefore_of_next hnext fun hmem => hstarts (mem_operandKinds.1 hmem)
    exact .pure ⟨rfl, hends.append hoperand, rfl⟩

/-- **A factor** is read as the machine reads it. -/
theorem tracks_factor (hlater : TracksLater context s)
    (hawaits : machine.AwaitsSign ⟨sum, quotient, false, [], []⟩)
    (hbegins : machine.Begins context true s) :
    machine.Tracks context s (Takes machine.levels ⟨sum, quotient, false, [], []⟩ productKinds)
      (factor context s) := by
  rw [factor]
  refine .nextIf (fun minus rest hle hnext hkind => ?_) fun token rest hnext hkind => ?_
  · refine .of_step hnext (by simp [hkind]) (step_minus hawaits hkind) ?_
    refine .expectOperand (by rw [hkind]) fun hbegins => ?_
    refine (tracks_product (hlater.mono hle) .operand rfl hbegins).bind ?_
    rintro operand _ _ ⟨rfl, hends, rfl⟩
    exact .of_alike alike_factor hends (.pure ⟨rfl, hends, rfl⟩)
  · refine (tracks_product hlater hawaits.awaits rfl (hbegins.unsigned hnext hkind)).bind ?_
    rintro operand _ _ ⟨rfl, hends, rfl⟩
    exact .pure ⟨rfl, hends, rfl⟩

/-- The operators between factors are those of the grammar. -/
theorem mem_termOperators {kind : Kind} {op : BinaryOp} (h : termOperation? kind = some op) :
    (kind, op) ∈ termOperators := by
  cases kind <;> cases h <;> decide

/-- And they are all. -/
theorem not_mem_of_termOperation? {kind : Kind} (h : termOperation? kind = none) :
    kind ∉ [Kind.star, .slash] := by
  cases kind <;> first | decide | cases h

/-- The factors after the first. -/
theorem tracks_quotients {parsed : Parsed s} (hlater : TracksLater context s)
    (hends : EndsBefore productKinds parsed.rest) :
    Tracks context ⟨levels, ⟨sum, none, false, [], []⟩, .complete parsed.tree false⟩ parsed.rest
      (Takes levels ⟨sum, none, false, [], []⟩ termKinds) (quotients context parsed) := by
  induction hleft : left parsed.rest using Nat.strongRecOn generalizing parsed with
  | ind n ih =>
  subst hleft
  rw [quotients]
  refine .peek fun token rest hnext => ?_
  dsimp only
  split
  · rename_i hnone
    have hoperator : EndsBefore [.star, .slash] parsed.rest :=
      endsBefore_of_next hnext (not_mem_of_termOperation? hnone)
    exact .pure ⟨rfl, hends.append hoperator, rfl⟩
  · rename_i op hsome
    have hkind : token.kind ≠ .endOfInput := fun h => by rw [h] at hsome; cases hsome
    refine .nextOperator hnext hkind (step_term (mem_termOperators hsome)) rfl
      fun hle hbegins => ?_
    have hlt : left rest < left s := Nat.lt_of_le_of_lt hle parsed.left_lt
    refine (tracks_factor (hlater.mono (Nat.le_of_lt hlt)) .operand hbegins).bind ?_
    rintro right _ _ ⟨rfl, hends, rfl⟩
    exact .of_alike alike_term hends (ih _ (Nat.lt_of_lt_of_le right.left_lt hle) hends rfl)

/-- **A term** is read as the machine reads it. -/
theorem tracks_term (hlater : TracksLater context s)
    (hawaits : machine.AwaitsSign ⟨sum, none, false, [], []⟩)
    (hbegins : machine.Begins context true s) :
    machine.Tracks context s (Takes machine.levels ⟨sum, none, false, [], []⟩ termKinds)
      (term context s) := by
  rw [term]
  refine (tracks_factor hlater hawaits hbegins).bind ?_
  rintro first _ _ ⟨rfl, hends, rfl⟩
  exact tracks_quotients hlater hends

/-- The operators between terms are those of the grammar. -/
theorem mem_sumOperators {kind : Kind} {op : BinaryOp} (h : sumOperation? kind = some op) :
    (kind, op) ∈ sumOperators := by
  cases kind <;> cases h <;> decide

/-- And they are all. -/
theorem not_mem_of_sumOperation? {kind : Kind} (h : sumOperation? kind = none) :
    kind ∉ [Kind.plus, .minus] := by
  cases kind <;> first | decide | cases h

/-- The terms after the first. -/
theorem tracks_sums {parsed : Parsed s} (hlater : TracksLater context s)
    (hends : EndsBefore termKinds parsed.rest) :
    Tracks context ⟨levels, .start, .complete parsed.tree false⟩ parsed.rest
      (Takes levels .start expressionKinds) (sums context parsed) := by
  induction hleft : left parsed.rest using Nat.strongRecOn generalizing parsed with
  | ind n ih =>
  subst hleft
  rw [sums]
  refine .peek fun token rest hnext => ?_
  dsimp only
  split
  · rename_i hnone
    have hoperator : EndsBefore [.plus, .minus] parsed.rest :=
      endsBefore_of_next hnext (not_mem_of_sumOperation? hnone)
    exact .pure ⟨rfl, hends.append hoperator, rfl⟩
  · rename_i op hsome
    have hkind : token.kind ≠ .endOfInput := fun h => by rw [h] at hsome; cases hsome
    refine .nextOperator hnext hkind (step_sum (mem_sumOperators hsome)) rfl
      fun hle hbegins => ?_
    have hlt : left rest < left s := Nat.lt_of_le_of_lt hle parsed.left_lt
    refine (tracks_term (hlater.mono (Nat.le_of_lt hlt)) .operand hbegins).bind ?_
    rintro right _ _ ⟨rfl, hends, rfl⟩
    exact .of_alike alike_sum hends (ih _ (Nat.lt_of_lt_of_le right.left_lt hle) hends rfl)

/-- **An expression** is read as the machine reads it. -/
theorem tracksExpression (context : Context) (s : σ) : TracksExpression context s := by
  -- By what is left: a routine calls itself only where a token less is.
  induction hleft : left s using Nat.strongRecOn generalizing s with
  | ind n ih =>
  subst hleft
  intro machine hawaits hbegins
  have hlater : TracksLater context s := fun s' hlt => ih _ hlt s' rfl
  rw [expression]
  refine (tracks_term hlater hawaits hbegins).bind ?_
  rintro first _ _ ⟨rfl, hends, rfl⟩
  exact tracks_sums hlater hends

/-! ## Sources -/

/-- **The routines say of a source what a machine says** that is fed it token
by token. -/
theorem whole_eq_pull (context : Context) (s : σ) : whole context s = start.pull context s := by
  have htracks : start.Tracks context s
      (fun (tree : Expr) after rest => after.pull context rest = .ok tree) (whole context s) := by
    rw [whole]
    refine (tracksExpression context s start .start ?_).bind ?_
    · exact begins_of_start rfl fun _ _ _ _ => by simp [start]
    rintro parsed _ _ ⟨rfl, hends, rfl⟩
    refine .next fun last hnext => ?_
    split
    · rename_i hkind
      exact .pure (pull_of_end hnext hkind)
    · rename_i hkind
      refine .of_step_error hnext hkind (step_eq_refuse (hends _ _ hnext) (fun _ => rfl) ?_)
      exact fun _ _ _ _ _ _ => by simp [start]
  cases hwhole : whole context s with
  | error error =>
    rw [hwhole] at htracks
    exact htracks.symm
  | ok tree =>
    rw [hwhole] at htracks
    obtain ⟨after, rest, hafter, hpull⟩ := htracks
    exact (hpull.trans hafter).symm

end Machine

end Calculator
