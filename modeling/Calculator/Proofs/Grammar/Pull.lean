import Calculator.Grammar.Descent
import Calculator.Proofs.Grammar.Completeness
/-!
# Machines beside routines

A routine looks at tokens before it reads them, and a machine reads each once,
so the two are to be compared by what is read from where they stand: `pull`
feeds a machine what a source has, and `Tracks` says that a machine which
pulls tokens does as a computation of routines does. The rules of `Tracks` go
along the operations of routines. A look or a read leaves the machine where
it is, for the token may turn out not to be for the routine; the machine makes
its step as soon as the routine knows (`Tracks.of_step`).

Routines keep no record of what waits for an operand, as machines do. So a
machine that has completed a level is exchanged for one that has read the tree
of that level as one operand: on the tokens that may follow, the two are alike
(`Machine.Alike`).
-/

namespace Calculator

open TokenSource Descent

variable {σ : Type} [TokenSource σ] {α β : Type} {s rest : σ}
variable {context : Context} {machine after : Machine} {token : Token}

/-- A source has one next token. -/
theorem TokenSource.next_unique {other : Token} {rest' : σ}
    (h : TokenSource.next s = (.ok token, rest)) (h' : TokenSource.next s = (.ok other, rest')) :
    other = token ∧ rest' = rest := by
  rw [h, Prod.mk.injEq, Except.ok.injEq] at h'
  exact ⟨h'.1.symm, h'.2.symm⟩

namespace Machine

/-! ## Runs -/

/-- **Feeds a machine what a source has**, up to the end of the input or the
first error. -/
def pull (context : Context) (machine : Machine) (s : σ) : Except (Located SyntaxError) Expr :=
  match h : TokenSource.next s with
  | (.error error, _) => .error (error.map .lexical)
  | (.ok token, rest) =>
    if hkind : token.kind = .endOfInput then machine.finish token
    else
      have := TokenSource.left_lt h hkind
      match machine.step context token with
      | .error error => .error error
      | .ok machine => pull context machine rest
termination_by left s

/-- What is no token ends the run. -/
theorem pull_of_error {error : Located LexError} (h : TokenSource.next s = (.error error, rest)) :
    machine.pull context s = .error (error.map .lexical) := by
  rw [pull]
  split
  · rename_i h'
    rw [h] at h'
    cases h'
    rfl
  · rename_i h'
    rw [h] at h'
    cases h'

/-- The end of the input completes the expression. -/
theorem pull_of_end (h : TokenSource.next s = (.ok token, rest))
    (hkind : token.kind = .endOfInput) : machine.pull context s = machine.finish token := by
  rw [pull]
  split
  · rename_i h'
    rw [h] at h'
    cases h'
  · rename_i h'
    rw [h] at h'
    cases h'
    rw [dif_pos hkind]

/-- Any other token takes the machine a step further. -/
theorem pull_of_token (h : TokenSource.next s = (.ok token, rest))
    (hkind : token.kind ≠ .endOfInput) :
    machine.pull context s =
      (machine.step context token).bind fun after => after.pull context rest := by
  rw [pull]
  split
  · rename_i h'
    rw [h] at h'
    cases h'
  · rename_i h'
    rw [h] at h'
    cases h'
    rw [dif_neg hkind]
    dsimp only
    cases machine.step context token <;> rfl

/-! ## Refusals -/

/-- The machine has no use for the token, which may be the end of the input. -/
structure Refuses (context : Context) (machine : Machine) (token : Token) : Prop where
  step : machine.step context token = machine.refuse token
  finish : machine.finish token = machine.refuse token

/-- A token that is refused ends the run. -/
theorem Refuses.pull (h : machine.Refuses context token)
    (hnext : TokenSource.next s = (.ok token, rest)) :
    machine.pull context s = .error ⟨machine.complaint token, token.span⟩ := by
  by_cases hkind : token.kind = .endOfInput
  · rw [pull_of_end hnext hkind, h.finish]
    rfl
  · rw [pull_of_token hnext hkind, h.step]
    rfl

/-- Only some tokens begin an operand. -/
theorem beginOperand_eq_refuse (h : ¬ token.kind.startsOperand) :
    machine.beginOperand context token = machine.refuse token := by
  unfold beginOperand
  split
  · rename_i hkind
    exact absurd (by rw [hkind]; rfl) h
  · rename_i hkind
    exact absurd (by rw [hkind]; rfl) h
  · rename_i hkind
    exact absurd (by rw [hkind]; rfl) h
  · rfl

/-- An operator is followed by an operand, or by a sign. -/
theorem refuses_of_operand {operator : Kind} {signed : Bool}
    (hphase : machine.phase = .operand operator signed)
    (h : ¬ (token.kind.startsOperand ∨ signed ∧ token.kind = .minus)) :
    machine.Refuses context token := by
  rw [not_or] at h
  refine ⟨?_, ?_⟩
  · rw [step, hphase]
    dsimp only [stepOperand]
    rw [if_neg fun hsign => h.2 hsign.symm, beginOperand_eq_refuse h.1]
  · rw [finish, hphase]

/-- So does an expression begin. A parenthesis may close a call without arguments. -/
theorem refuses_of_start (hphase : machine.phase = .start)
    (h : ¬ (token.kind.startsOperand ∨ token.kind = .minus))
    (hclose : token.kind = .closeParen →
      ∀ name arity outer levels, machine.levels ≠ ⟨.call name arity [], outer⟩ :: levels) :
    machine.Refuses context token := by
  rw [not_or] at h
  refine ⟨?_, ?_⟩
  · rw [step, hphase]
    dsimp only [stepStart]
    split
    · rename_i hkind
      exact absurd hkind h.2
    · rename_i hkind hlevels
      exact absurd hlevels (hclose hkind _ _ _ _)
    · exact beginOperand_eq_refuse h.1
  · rw [finish, hphase]

/-- A function is followed by its arguments. -/
theorem refuses_of_callee {name : Token} {arity : Nat} (hphase : machine.phase = .callee name arity)
    (h : token.kind ≠ .openParen) : machine.Refuses context token := by
  refine ⟨?_, ?_⟩
  · rw [step, hphase]
    dsimp only [stepCallee]
    rw [if_neg h]
  · rw [finish, hphase]

/-! ## Machines that are as good as each other -/

/-- The next token is none of these kinds. -/
def EndsBefore (kinds : List Kind) (s : σ) : Prop :=
  ∀ token rest, TokenSource.next s = (.ok token, rest) → token.kind ∉ kinds

/-- One look shows what the next token is not. -/
theorem endsBefore_of_next {kinds : List Kind} (h : TokenSource.next s = (.ok token, rest))
    (hkind : token.kind ∉ kinds) : EndsBefore kinds s := by
  intro other rest' h'
  obtain ⟨rfl, -⟩ := next_unique h h'
  exact hkind

/-- It may be of neither these kinds nor those. -/
theorem EndsBefore.append {kinds more : List Kind} (h : EndsBefore kinds s)
    (hmore : EndsBefore more s) : EndsBefore (kinds ++ more) s := by
  intro token rest hnext hkind
  rcases List.mem_append.1 hkind with hkind | hkind
  · exact h token rest hnext hkind
  · exact hmore token rest hnext hkind

/-- Two machines do the same on tokens of other kinds than these. -/
def Alike (context : Context) (kinds : List Kind) (machine other : Machine) : Prop :=
  ∀ token, token.kind ∉ kinds →
    machine.step context token = other.step context token ∧
      machine.finish token = other.finish token

/-- So either of them may be fed a source that has no such token next. -/
theorem Alike.pull_eq {kinds : List Kind} {other : Machine}
    (h : machine.Alike context kinds other) (hends : EndsBefore kinds s) :
    machine.pull context s = other.pull context s := by
  cases houtcome : TokenSource.next s with
  | mk outcome rest =>
    cases outcome with
    | error error => rw [pull_of_error houtcome, pull_of_error houtcome]
    | ok token =>
      obtain ⟨hstep, hfinish⟩ := h token (hends token rest houtcome)
      by_cases hkind : token.kind = .endOfInput
      · rw [pull_of_end houtcome hkind, pull_of_end houtcome hkind, hfinish]
      · rw [pull_of_token houtcome hkind, pull_of_token houtcome hkind, hstep]

/-- What an operand may go on with inside a power, the factorial being taken. -/
def powerKinds : List Kind := [.caret]

/-- What it may go on with inside a product. -/
def productKinds : List Kind := powerKinds ++ operandKinds

/-- What it may go on with inside a term. -/
def termKinds : List Kind := productKinds ++ [.star, .slash]

/-- What it may go on with inside an expression. -/
def expressionKinds : List Kind := termKinds ++ [.plus, .minus]

/-- The tokens that begin an operand. -/
theorem mem_operandKinds {kind : Kind} : kind ∈ operandKinds ↔ kind.startsOperand := by
  cases kind <;> decide

/-- A product goes on with every one of them. -/
theorem mem_productKinds {kind : Kind} (h : kind.startsOperand) : kind ∈ productKinds :=
  List.mem_append_right _ (mem_operandKinds.2 h)

section Alike

variable {levels : List Level} {pending pending' : Pending} {operand operand' : Expr}

/-- Whether an operand is bare matters to a factorial only. -/
theorem alike_bare : Alike context [.bang] ⟨levels, pending, .complete operand true⟩
    ⟨levels, pending, .complete operand false⟩ := by
  intro token hkind
  refine ⟨?_, ?_⟩
  · simp only [step, stepComplete]
    split
    · rename_i hbang
      exact absurd (List.mem_singleton.2 hbang) hkind
    all_goals rfl
  · cases levels <;> rfl

/-- The level on which an operand goes on tells which of the parts that wait
for it matter. -/
theorem alike_of {kinds : List Kind}
    (hraise : .caret ∉ kinds → pending.raise operand = pending'.raise operand')
    (hjuxtapose : (∃ kind ∉ kinds, kind.startsOperand) →
      pending.juxtapose operand = pending'.juxtapose operand')
    (hterm : (∃ kind ∉ kinds, kind = .star ∨ kind = .slash) →
      pending.extendTerm operand = pending'.extendTerm operand')
    (hsum : (∃ kind ∉ kinds, kind = .plus ∨ kind = .minus) →
      pending.extendSum operand = pending'.extendSum operand')
    (hexpression : pending.expression operand = pending'.expression operand') :
    Alike context kinds ⟨levels, pending, .complete operand false⟩
      ⟨levels, pending', .complete operand' false⟩ := by
  intro token hkinds
  refine ⟨?_, ?_⟩
  · simp only [step, stepComplete, stepComplete.continueWith]
    split
    · rfl
    · rename_i hkind
      rw [hraise (hkind ▸ hkinds)]
    · rename_i hkind
      rw [hterm ⟨_, hkinds, .inl hkind⟩]
    · rename_i hkind
      rw [hterm ⟨_, hkinds, .inr hkind⟩]
    · rename_i hkind
      rw [hsum ⟨_, hkinds, .inl hkind⟩]
    · rename_i hkind
      rw [hsum ⟨_, hkinds, .inr hkind⟩]
    · rename_i hkind
      rw [hjuxtapose ⟨_, hkinds, by rw [hkind]; rfl⟩]
      simp only [beginOperand, hkind, completed]
    · rename_i hkind
      rw [hjuxtapose ⟨_, hkinds, by rw [hkind]; rfl⟩]
      simp only [beginOperand, hkind, completed]
    · rename_i hkind
      rw [hjuxtapose ⟨_, hkinds, by rw [hkind]; rfl⟩]
      simp only [beginOperand, hkind]
    · rw [hexpression]
      rfl
  · cases levels with
    | nil => exact congrArg Except.ok hexpression
    | cons => rfl

/-- Where no operand is juxtaposed, all that counts is the term so far and the
sum it belongs to. -/
theorem alike_of_term (hterm : pending.extendTerm operand = pending'.extendTerm operand')
    (hsum : pending.extendSum operand = pending'.extendSum operand')
    (hexpression : pending.expression operand = pending'.expression operand') :
    Alike context productKinds ⟨levels, pending, .complete operand false⟩
      ⟨levels, pending', .complete operand' false⟩ :=
  alike_of (fun h => absurd (by decide) h)
    (fun ⟨_, hkind, hstarts⟩ => absurd (mem_productKinds hstarts) hkind)
    (fun _ => hterm) (fun _ => hsum) hexpression

/-- A power that is complete is as good as an operand. -/
theorem alike_power : Alike context powerKinds
    ⟨levels, pending.raise operand, .complete operand' false⟩
    ⟨levels, pending, .complete (.binary .pow operand operand') false⟩ :=
  alike_of (fun h => absurd (by decide) h) (fun _ => rfl) (fun _ => rfl) (fun _ => rfl) rfl

/-- So is a product. -/
theorem alike_product (hbases : pending.bases = []) : Alike context productKinds
    ⟨levels, pending.juxtapose operand, .complete operand' false⟩
    ⟨levels, pending, .complete (.binary .mul operand operand') false⟩ := by
  obtain ⟨sum, quotient, negated, factors, bases⟩ := pending
  dsimp only at hbases
  subst hbases
  exact alike_of_term rfl rfl rfl

/-- So is a factor with a sign. -/
theorem alike_factor {sum quotient : Option (Expr × BinaryOp)} : Alike context productKinds
    ⟨levels, ⟨sum, quotient, true, [], []⟩, .complete operand false⟩
    ⟨levels, ⟨sum, quotient, false, [], []⟩, .complete (.neg operand) false⟩ :=
  alike_of_term rfl rfl rfl

/-- So is a term. -/
theorem alike_term {sum : Option (Expr × BinaryOp)} {op : BinaryOp} : Alike context productKinds
    ⟨levels, ⟨sum, some (operand, op), false, [], []⟩, .complete operand' false⟩
    ⟨levels, ⟨sum, none, false, [], []⟩, .complete (.binary op operand operand') false⟩ :=
  alike_of_term rfl rfl rfl

/-- And so is a sum. -/
theorem alike_sum {op : BinaryOp} : Alike context termKinds
    ⟨levels, ⟨some (operand, op), none, false, [], []⟩, .complete operand' false⟩
    ⟨levels, .start, .complete (.binary op operand operand') false⟩ := by
  refine alike_of (fun h => absurd (by decide) h) ?_ ?_ (fun _ => rfl) rfl
  · rintro ⟨kind, hkind, hstarts⟩
    exact absurd (List.mem_append_left _ (mem_productKinds hstarts)) hkind
  · rintro ⟨kind, hkind, rfl | rfl⟩
    · exact absurd (by decide) hkind
    · exact absurd (by decide) hkind

end Alike

/-- After a whole expression, a bracket or a comma has to follow. -/
theorem step_eq_refuse {levels : List Level} {pending : Pending} {operand : Expr}
    (hkind : token.kind ∉ expressionKinds) (hclose : token.kind = .closeParen → levels = [])
    (hcomma : token.kind = .comma →
      ∀ name arity done outer rest, levels ≠ ⟨.call name arity done, outer⟩ :: rest) :
    step context ⟨levels, pending, .complete operand false⟩ token =
      refuse ⟨levels, pending, .complete operand false⟩ token := by
  have hexpression {kind : Kind} (hmem : kind ∈ expressionKinds) : token.kind ≠ kind :=
    fun h => hkind (h ▸ hmem)
  simp only [step, stepComplete]
  split
  · rfl
  -- An operator, or a token that begins an operand, would go on with the expression.
  iterate 8
    rename_i h
    exact absurd h (hexpression (by decide))
  · unfold stepExpression
    split
    · rename_i h hlevels
      cases (hclose h).symm.trans hlevels
    · rename_i h hlevels
      cases (hclose h).symm.trans hlevels
    · rename_i h hlevels
      exact absurd hlevels (hcomma h _ _ _ _ _)
    · rfl

/-! ## Tracking -/

/-- The next token begins an operand, or is a sign where one may be; or the
machine refuses it as it does at the start. -/
def Begins (context : Context) (machine : Machine) (signed : Bool) (s : σ) : Prop :=
  ∀ token rest, TokenSource.next s = (.ok token, rest) →
    ¬ (token.kind.startsOperand ∨ signed ∧ token.kind = .minus) →
      machine.pull context s = .error ⟨start.complaint token, token.span⟩

/-- So it is where an expression begins, but for a call without arguments. -/
theorem begins_of_start (hphase : machine.phase = .start)
    (hclose : ∀ token rest, TokenSource.next s = (.ok token, rest) → token.kind = .closeParen →
      ∀ name arity outer levels, machine.levels ≠ ⟨.call name arity [], outer⟩ :: levels) :
    machine.Begins context true s := by
  intro token rest hnext hnot
  have hrefuses : machine.Refuses context token :=
    refuses_of_start hphase (by simpa using hnot) (hclose token rest hnext)
  have hpull := hrefuses.pull hnext
  rwa [complaint, hphase] at hpull

/-- One look shows that an operand begins. -/
theorem begins_of_next {signed : Bool} (h : TokenSource.next s = (.ok token, rest))
    (hkind : token.kind.startsOperand ∨ signed ∧ token.kind = .minus) :
    machine.Begins context signed s := by
  intro other rest' h' hnot
  obtain ⟨rfl, -⟩ := next_unique h h'
  exact absurd hkind hnot

/-- Where no sign is next, none may be. -/
theorem Begins.unsigned (h : machine.Begins context true s)
    (hnext : TokenSource.next s = (.ok token, rest)) (hkind : token.kind ≠ .minus) :
    machine.Begins context false s := by
  intro other rest' hnext' hnot
  refine h other rest' hnext' fun hbegins => hnot (.inl ?_)
  obtain ⟨rfl, -⟩ := next_unique hnext hnext'
  exact hbegins.resolve_right fun hminus => hkind hminus.2

/-- **The machine does as a computation does**: both fail with one error, or
the computation gives a value and the machine gets to where the value says. -/
def Tracks (context : Context) (machine : Machine) (s : σ) (post : β → Machine → σ → Prop) :
    Outcome β → Prop
  | .error error => machine.pull context s = .error error
  | .ok value => ∃ after rest, post value after rest ∧
      machine.pull context s = after.pull context rest

namespace Tracks

variable {post : β → Machine → σ → Prop} {mid : α → Machine → σ → Prop}

/-- A value that is there already. -/
theorem pure {value : β} (h : post value machine s) :
    machine.Tracks context s post (Pure.pure value) :=
  ⟨machine, s, h, rfl⟩

/-- A machine that pulls the same from elsewhere tracks the same. -/
theorem of_pull_eq {outcome : Outcome β} (hpull : machine.pull context s = after.pull context rest)
    (h : after.Tracks context rest post outcome) : machine.Tracks context s post outcome := by
  cases outcome with
  | error error => exact hpull.trans h
  | ok value =>
    obtain ⟨last, remaining, hpost, hlast⟩ := h
    exact ⟨last, remaining, hpost, hpull.trans hlast⟩

/-- One computation after another. -/
theorem bind {outcome : Outcome α} {f : α → Outcome β}
    (h : machine.Tracks context s mid outcome)
    (hf : ∀ value after rest, mid value after rest →
      after.Tracks context rest post (f value)) :
    machine.Tracks context s post (outcome >>= f) := by
  cases outcome with
  | error error => exact h
  | ok value =>
    obtain ⟨after, rest, hmid, hpull⟩ := h
    exact of_pull_eq hpull (hf value after rest hmid)

/-- The machine catches up by a step. -/
theorem of_step {outcome : Outcome β} (hnext : TokenSource.next s = (.ok token, rest))
    (hkind : token.kind ≠ .endOfInput) (hstep : machine.step context token = .ok after)
    (h : after.Tracks context rest post outcome) : machine.Tracks context s post outcome := by
  refine of_pull_eq ?_ h
  rw [pull_of_token hnext hkind, hstep]
  rfl

/-- Both fail on the next token. -/
theorem of_step_error {error : Located SyntaxError}
    (hnext : TokenSource.next s = (.ok token, rest)) (hkind : token.kind ≠ .endOfInput)
    (hstep : machine.step context token = .error error) :
    machine.Tracks context s post (.error error) := by
  show machine.pull context s = .error error
  rw [pull_of_token hnext hkind, hstep]
  rfl

/-- Another machine may stand for this one. -/
theorem of_alike {kinds : List Kind} {other : Machine} {outcome : Outcome β}
    (halike : machine.Alike context kinds other) (hends : EndsBefore kinds s)
    (h : other.Tracks context s post outcome) : machine.Tracks context s post outcome :=
  of_pull_eq (halike.pull_eq hends) h

/-- A look at the next token. -/
theorem peek {f : Taken s Token → Outcome β}
    (h : ∀ token rest, TokenSource.next s = (.ok token, rest) →
      machine.Tracks context s post (f ⟨token, s, Nat.le_refl _⟩)) :
    machine.Tracks context s post (Descent.peek s >>= f) := by
  unfold Descent.peek
  split
  · rename_i error rest hpeek
    rw [peek_eq, Prod.mk.injEq] at hpeek
    exact pull_of_error (Prod.ext hpeek.1 rfl)
  · rename_i token rest hpeek
    rw [peek_eq, Prod.mk.injEq] at hpeek
    obtain ⟨hnext, rfl⟩ := hpeek
    exact h token _ (Prod.ext hnext rfl)

/-- The next token is read, and the machine has yet to. -/
theorem next {f : Next s → Outcome β}
    (h : ∀ token : Next s, TokenSource.next s = (.ok token.value, token.rest) →
      machine.Tracks context s post (f token)) :
    machine.Tracks context s post (Descent.next s >>= f) := by
  unfold Descent.next
  split
  · rename_i error rest hnext
    exact pull_of_error hnext
  · rename_i token rest hnext
    exact h ⟨⟨token, rest, _⟩, _⟩ hnext

/-- The next token is read if it is of the kind. -/
theorem nextIf {kind : Kind} {f : Taken s (Option Token) → Outcome β}
    (hsome : ∀ (token : Token) (rest : σ) (hle : left rest ≤ left s),
      TokenSource.next s = (.ok token, rest) → token.kind = kind →
        machine.Tracks context s post (f ⟨some token, rest, hle⟩))
    (hnone : ∀ (token : Token) (rest : σ), TokenSource.next s = (.ok token, rest) →
      token.kind ≠ kind → machine.Tracks context s post (f ⟨none, s, Nat.le_refl _⟩)) :
    machine.Tracks context s post (Descent.nextIf kind s >>= f) := by
  rw [Descent.nextIf, bind_assoc]
  refine peek fun token rest hnext => ?_
  dsimp only
  split
  · rename_i hkind
    rw [bind_assoc]
    refine next fun read hread => ?_
    obtain ⟨hvalue, -⟩ := next_unique hnext hread
    exact hsome read.value read.rest read.left_le hread (hvalue ▸ hkind)
  · rename_i hkind
    exact hnone token rest hnext hkind

/-- The next token is of the kind, or the machine says so too. -/
theorem expect {kind : Kind} {f : Taken s Token → Outcome β}
    (hok : ∀ (token : Token) (rest : σ) (hle : left rest ≤ left s),
      TokenSource.next s = (.ok token, rest) → token.kind = kind →
        machine.Tracks context s post (f ⟨token, rest, hle⟩))
    (herror : ∀ (token : Token) (rest : σ), TokenSource.next s = (.ok token, rest) →
      token.kind ≠ kind →
        machine.pull context s = .error ⟨.unexpectedToken [kind] token.kind, token.span⟩) :
    machine.Tracks context s post (Descent.expect kind s >>= f) := by
  rw [Descent.expect, bind_assoc]
  refine next fun token hnext => ?_
  split
  · rename_i hkind
    exact hok token.value token.rest token.left_le hnext hkind
  · rename_i hkind
    exact herror token.value token.rest hnext hkind

/-- An operand follows an operator, or the machine misses it too. -/
theorem expectOperand {operator : Token} {signed : Bool} {f : Taken s Unit → Outcome β}
    (hphase : machine.phase = .operand operator.kind signed)
    (h : machine.Begins context signed s →
      machine.Tracks context s post (f ⟨(), s, Nat.le_refl _⟩)) :
    machine.Tracks context s post (Descent.expectOperand operator signed s >>= f) := by
  rw [Descent.expectOperand, bind_assoc]
  refine peek fun token rest hnext => ?_
  dsimp only
  split
  · rename_i hkind
    exact h (begins_of_next hnext hkind)
  · rename_i hkind
    have hrefuses : machine.Refuses context token := refuses_of_operand hphase hkind
    have hpull := hrefuses.pull hnext
    rwa [complaint, hphase] at hpull

/-- A binary operator is read, and an operand follows it or is missed. -/
theorem nextOperator {f : Taken s Unit → Outcome β}
    (hnext : TokenSource.next s = (.ok token, rest)) (hkind : token.kind ≠ .endOfInput)
    (hstep : machine.step context token = .ok after)
    (hphase : after.phase = .operand token.kind true)
    (h : ∀ hle : left rest ≤ left s, after.Begins context true rest →
      after.Tracks context rest post (f ⟨(), rest, hle⟩)) :
    machine.Tracks context s post (Descent.nextOperator s >>= f) := by
  rw [Descent.nextOperator, bind_assoc]
  refine next fun operator hoperator => ?_
  obtain ⟨rfl, rfl⟩ := next_unique hnext hoperator
  rw [bind_assoc]
  exact .of_step hnext hkind hstep (.expectOperand hphase fun hbegins => h operator.left_le hbegins)

end Tracks

end Machine

end Calculator
