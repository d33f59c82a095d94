import Calculator.Proofs.Grammar.Refusal
import Calculator.Proofs.Token.Tiling
/-!
# What a refusal says

A token that cannot come next is refused, and what the refusal says is
settled by the tokens alone: by the refused one, by the one before it and by
the innermost parenthesis that is open (`Context.diagnosis`). What a machine
has read tells its phase and its open parentheses (`Machine.Reflects`), each
step keeps that (`Machine.Reflects.step`), and so a machine complains as the
diagnosis does (`Machine.Reflects.complaint_eq`).
-/

namespace Calculator

/-! ## The diagnosis -/

/-- The tokens that an operand has to follow. -/
def Kind.isOperator : Kind → Bool
  | plus | minus | star | slash | caret => true
  | _ => false

/-- The token is the name of a function. -/
def Context.isFunction (context : Context) (token : Token) : Bool :=
  token.kind == .identifier && (context.lookup token.text).any (·.kind == .fn)

/-- What holds the place after some tokens. -/
inductive Enclosure where
  /-- No parenthesis is open. -/
  | outside
  /-- The innermost open parenthesis groups an expression. -/
  | group
  /-- It opens the arguments of a function. -/
  | call
deriving DecidableEq

/-- **The innermost open parenthesis**, looked for from the last token back.
Each one that closes hides one that opens; `hidden` counts those still to
pass. -/
def Context.enclosing (context : Context) : List Token → Nat → Enclosure
  | [], _ => .outside
  | token :: earlier, hidden =>
    match token.kind, hidden with
    | .closeParen, hidden => context.enclosing earlier (hidden + 1)
    | .openParen, 0 => if earlier.head?.any context.isFunction then .call else .group
    | .openParen, hidden + 1 => context.enclosing earlier hidden
    | _, hidden => context.enclosing earlier hidden

/-- What holds the place after these tokens. -/
def Context.enclosure (context : Context) (before : List Token) : Enclosure :=
  context.enclosing before.reverse 0

/-- What is wrong with a token where an expression has to begin. -/
def Token.noExpression (token : Token) : SyntaxError :=
  if token.kind = .endOfInput then .unexpectedEnd
  else .unexpectedToken [.number, .identifier, .openParen] token.kind

/-- What is wrong with a token after an operand. -/
def Enclosure.noOperator (token : Token) : Enclosure → SyntaxError
  | outside => .trailingInput token.text
  | group => .unexpectedToken [.closeParen] token.kind
  | call => .unexpectedToken [.comma, .closeParen] token.kind

/-- **What is wrong with a token that cannot come after these.** -/
def Context.diagnosis (context : Context) (before : List Token) (token : Token) : SyntaxError :=
  match before.getLast? with
  | none => token.noExpression
  | some last =>
    if last.kind.isOperator then .missingOperand last.kind token.kind
    else if last.kind = .openParen ∨ last.kind = .comma then token.noExpression
    else if context.isFunction last then .unexpectedToken [.openParen] token.kind
    else (context.enclosure before).noOperator token

/-! ## Where a step leads -/

namespace Machine

variable {context : Context} {machine after : Machine} {token : Token} {before : List Token}

/-- **The ways a step can go**, as far as parentheses and phases are concerned. -/
inductive Moves (context : Context) (machine : Machine) (token : Token) : Machine → Prop
  | operator {pending : Pending} {kind : Kind} {signed : Bool} : token.kind = kind →
      kind.isOperator → Moves context machine token ⟨machine.levels, pending, .operand kind signed⟩
  | operand {pending : Pending} {operand : Expr} {bare : Bool} :
      token.kind = .number ∨ token.kind = .bang ∨
        token.kind = .identifier ∧ context.isFunction token = false →
      Moves context machine token ⟨machine.levels, pending, .complete operand bare⟩
  | name {pending : Pending} {arity : Nat} : context.isFunction token →
      Moves context machine token ⟨machine.levels, pending, .callee token arity⟩
  | openGroup {outer : Pending} : token.kind = .openParen →
      (∀ name arity, machine.phase ≠ .callee name arity) →
      Moves context machine token ⟨⟨.group, outer⟩ :: machine.levels, .start, .start⟩
  | openCall {outer : Pending} {name : Token} {arity : Nat} : token.kind = .openParen →
      machine.phase = .callee name arity →
      Moves context machine token ⟨⟨.call name arity [], outer⟩ :: machine.levels, .start, .start⟩
  | close {level : Level} {levels : List Level} {pending : Pending} {operand : Expr} :
      token.kind = .closeParen → machine.levels = level :: levels →
      Moves context machine token ⟨levels, pending, .complete operand true⟩
  | comma {name : Token} {arity : Nat} {done arguments : List Expr} {outer : Pending}
      {levels : List Level} : token.kind = .comma →
      machine.levels = ⟨.call name arity done, outer⟩ :: levels →
      Moves context machine token ⟨⟨.call name arity arguments, outer⟩ :: levels, .start, .start⟩

/-- A token that begins an operand is a number, a name or a parenthesis. -/
theorem moves_of_beginOperand {levels : List Level} {pending pending' : Pending} {phase : Phase}
    (hphase : ∀ name arity, phase ≠ .callee name arity)
    (h : beginOperand context ⟨levels, pending', phase⟩ token = .ok after) :
    Moves context ⟨levels, pending, phase⟩ token after := by
  unfold beginOperand at h
  split at h
  · rename_i hkind
    cases h
    exact .operand (.inl hkind)
  · rename_i hkind
    split at h
    · cases h
    · rename_i hlookup
      cases h
      exact .operand (.inr (.inr ⟨hkind, by simp [Context.isFunction, hlookup, Meaning.kind]⟩))
    · rename_i hlookup
      cases h
      exact .name (by simp [Context.isFunction, hkind, hlookup, Meaning.kind])
  · rename_i hkind
    cases h
    exact .openGroup hkind hphase
  · exact absurd h refuse_ne_ok

/-- After a whole expression a parenthesis may close, and a comma may follow an argument. -/
theorem moves_of_stepExpression {expression : Expr}
    (h : machine.stepExpression expression token = .ok after) :
    Moves context machine token after := by
  unfold stepExpression at h
  split at h
  · rename_i hkind hlevels
    cases h
    exact .close hkind hlevels
  · rename_i hkind hlevels
    obtain ⟨-, rfl⟩ := endCall_eq_ok h
    exact .close hkind hlevels
  · rename_i hkind hlevels
    cases h
    exact .comma hkind hlevels
  · exact absurd h refuse_ne_ok

/-- **Each step goes one of these ways.** -/
theorem moves_of_step (h : machine.step context token = .ok after) :
    Moves context machine token after := by
  obtain ⟨levels, pending, phase⟩ := machine
  cases phase with
  | start =>
    simp only [step, stepStart] at h
    split at h
    · rename_i hkind
      cases h
      exact .operator hkind rfl
    · rename_i hkind
      obtain ⟨-, rfl⟩ := endCall_eq_ok h
      exact .close hkind rfl
    · exact moves_of_beginOperand (by simp) h
  | operand operator signed =>
    simp only [step, stepOperand] at h
    split at h
    · rename_i hkind
      cases h
      exact .operator hkind.1 rfl
    · exact moves_of_beginOperand (by simp) h
  | callee name arity =>
    simp only [step, stepCallee] at h
    split at h
    · rename_i hkind
      cases h
      exact .openCall hkind rfl
    · exact absurd h refuse_ne_ok
  | complete operand bare =>
    simp only [step, stepComplete] at h
    split at h
    · rename_i hkind
      split at h
      · cases h
        exact .operand (.inr (.inl hkind))
      · exact absurd h refuse_ne_ok
    · rename_i hkind
      cases h
      exact .operator hkind rfl
    · rename_i hkind
      cases h
      exact .operator rfl (by rw [hkind]; rfl)
    · rename_i hkind
      cases h
      exact .operator rfl (by rw [hkind]; rfl)
    · rename_i hkind
      cases h
      exact .operator rfl (by rw [hkind]; rfl)
    · rename_i hkind
      cases h
      exact .operator rfl (by rw [hkind]; rfl)
    · exact moves_of_beginOperand (by simp) h
    · exact moves_of_beginOperand (by simp) h
    · exact moves_of_beginOperand (by simp) h
    · exact moves_of_stepExpression h

end Machine

/-! ## What the tokens say of a machine -/

variable {context : Context} {machine after : Machine} {token : Token} {before : List Token}

/-- **What was read last**, for a machine to be in this phase. -/
inductive Phase.Follows (context : Context) : Phase → Option Token → Prop
  | start : Phase.Follows context .start none
  | begin {last : Token} : last.kind = .openParen ∨ last.kind = .comma →
      Phase.Follows context .start (some last)
  | operand {last : Token} {signed : Bool} : last.kind.isOperator →
      Phase.Follows context (.operand last.kind signed) (some last)
  | callee {name : Token} {arity : Nat} : context.isFunction name →
      Phase.Follows context (.callee name arity) (some name)
  | complete {last : Token} {operand : Expr} {bare : Bool} :
      last.kind = .number ∨ last.kind = .bang ∨ last.kind = .closeParen ∨
        last.kind = .identifier ∧ context.isFunction last = false →
      Phase.Follows context (.complete operand bare) (some last)

/-- What an open parenthesis holds, if there is one. -/
def Enclosure.ofLevel? : Option Level → Enclosure
  | none => outside
  | some ⟨.group, _⟩ => group
  | some ⟨.call .., _⟩ => call

/-- **A machine is as the tokens say** that it has read. -/
structure Machine.Reflects (context : Context) (machine : Machine) (before : List Token) :
    Prop where
  phase : machine.phase.Follows context before.getLast?
  levels : ∀ hidden, context.enclosing before.reverse hidden = .ofLevel? machine.levels[hidden]?

/-- A function has an identifier for its name. -/
theorem Context.kind_of_isFunction (h : context.isFunction token) : token.kind = .identifier := by
  simp only [isFunction, Bool.and_eq_true, beq_iff_eq] at h
  exact h.1

/-- So a token of another kind is no function. -/
theorem Context.isFunction_eq_false (h : token.kind ≠ .identifier) :
    context.isFunction token = false :=
  Bool.eq_false_iff.2 fun hfunction => h (kind_of_isFunction hfunction)

/-- **The arguments of a function are due right after its name**, and only there. -/
theorem Phase.Follows.any_isFunction_iff {phase : Phase} {last : Option Token}
    (h : phase.Follows context last) :
    last.any context.isFunction ↔ ∃ name arity, phase = .callee name arity := by
  cases h with
  | start => simp
  | @begin last hkind =>
    have : context.isFunction last = false :=
      Context.isFunction_eq_false (by rcases hkind with h | h <;> simp [h])
    simp [this]
  | @operand last signed hoperator =>
    have : context.isFunction last = false :=
      Context.isFunction_eq_false fun h => by simp [h, Kind.isOperator] at hoperator
    simp [this]
  | callee hfunction => simp [hfunction]
  | @complete last operand bare hkind =>
    have : context.isFunction last = false := by
      rcases hkind with h | h | h | ⟨-, h⟩
      · exact Context.isFunction_eq_false (by simp [h])
      · exact Context.isFunction_eq_false (by simp [h])
      · exact Context.isFunction_eq_false (by simp [h])
      · exact h
    simp [this]

/-! ### Parentheses -/

section Enclosing

variable {earlier : List Token} {hidden : Nat}

/-- Other tokens than parentheses open and close nothing. -/
theorem Context.enclosing_of_other (hopen : token.kind ≠ .openParen)
    (hclose : token.kind ≠ .closeParen) :
    context.enclosing (token :: earlier) hidden = context.enclosing earlier hidden := by
  conv_lhs => unfold enclosing
  split <;> simp_all

/-- A parenthesis that closes hides one more. -/
theorem Context.enclosing_of_close (hkind : token.kind = .closeParen) :
    context.enclosing (token :: earlier) hidden = context.enclosing earlier (hidden + 1) := by
  simp [enclosing, hkind]

/-- One that opens is hidden itself, if any is to be. -/
theorem Context.enclosing_of_open_succ (hkind : token.kind = .openParen) :
    context.enclosing (token :: earlier) (hidden + 1) = context.enclosing earlier hidden := by
  simp [enclosing, hkind]

/-- Otherwise it is the innermost one. -/
theorem Context.enclosing_of_open_zero (hkind : token.kind = .openParen) :
    context.enclosing (token :: earlier) 0 =
      if earlier.head?.any context.isFunction then .call else .group := by
  simp [enclosing, hkind]

end Enclosing

namespace Machine

/-- Nothing was read at the start. -/
theorem reflects_start : Machine.start.Reflects context [] :=
  ⟨.start, fun _ => rfl⟩

/-- The parenthesis just opened holds arguments if a function is right before it. -/
theorem Reflects.levels_of_open {level : Level} (h : machine.Reflects context before)
    (hkind : token.kind = .openParen)
    (hlevel : Enclosure.ofLevel? (some level) =
      if before.getLast?.any context.isFunction then .call else .group) (hidden : Nat) :
    context.enclosing (before ++ [token]).reverse hidden =
      .ofLevel? (level :: machine.levels)[hidden]? := by
  rw [List.reverse_concat]
  cases hidden with
  | zero => rw [Context.enclosing_of_open_zero hkind, List.head?_reverse, ← hlevel]; rfl
  | succ hidden => rw [Context.enclosing_of_open_succ hkind, h.levels]; rfl

/-- Most tokens leave the parentheses alone. -/
theorem Reflects.levels_of_other (h : machine.Reflects context before)
    (hopen : token.kind ≠ .openParen) (hclose : token.kind ≠ .closeParen) (hidden : Nat) :
    context.enclosing (before ++ [token]).reverse hidden = .ofLevel? machine.levels[hidden]? := by
  rw [List.reverse_concat, Context.enclosing_of_other hopen hclose, h.levels]

/-- **A step keeps a machine as the tokens say.** -/
theorem Reflects.step (h : machine.Reflects context before)
    (hstep : machine.step context token = .ok after) :
    after.Reflects context (before ++ [token]) := by
  have hcallee := h.phase.any_isFunction_iff
  cases moves_of_step hstep with
  | operator hkind hoperator =>
    subst hkind
    refine ⟨?_, h.levels_of_other ?_ ?_⟩
    · rw [List.getLast?_concat]
      exact .operand hoperator
    · exact fun hkind => by simp [hkind, Kind.isOperator] at hoperator
    · exact fun hkind => by simp [hkind, Kind.isOperator] at hoperator
  | operand hkind =>
    refine ⟨?_, h.levels_of_other ?_ ?_⟩
    · rw [List.getLast?_concat]
      exact .complete (by tauto)
    · rcases hkind with h | h | ⟨h, -⟩ <;> simp [h]
    · rcases hkind with h | h | ⟨h, -⟩ <;> simp [h]
  | name hfunction =>
    have hkind := Context.kind_of_isFunction hfunction
    refine ⟨?_, h.levels_of_other (by simp [hkind]) (by simp [hkind])⟩
    rw [List.getLast?_concat]
    exact .callee hfunction
  | openGroup hkind hnot =>
    refine ⟨?_, h.levels_of_open hkind ?_⟩
    · rw [List.getLast?_concat]
      exact .begin (.inl hkind)
    · rw [if_neg fun hany => ?_]
      · rfl
      · obtain ⟨name, arity, hphase⟩ := hcallee.1 hany
        exact hnot name arity hphase
  | openCall hkind hphase =>
    refine ⟨?_, h.levels_of_open hkind ?_⟩
    · rw [List.getLast?_concat]
      exact .begin (.inl hkind)
    · rw [if_pos (hcallee.2 ⟨_, _, hphase⟩)]
      rfl
  | close hkind hlevels =>
    refine ⟨?_, fun hidden => ?_⟩
    · rw [List.getLast?_concat]
      exact .complete (.inr (.inr (.inl hkind)))
    · rw [List.reverse_concat, Context.enclosing_of_close hkind, h.levels, hlevels,
        List.getElem?_cons_succ]
  | comma hkind hlevels =>
    refine ⟨?_, fun hidden => ?_⟩
    · rw [List.getLast?_concat]
      exact .begin (.inr hkind)
    · rw [h.levels_of_other (by simp [hkind]) (by simp [hkind]), hlevels]
      -- The parenthesis holds one argument more, and is the same one.
      cases hidden <;> rfl

/-- **A run does so too.** -/
theorem Reflects.read {us : List Token} (h : machine.Reflects context before)
    (hread : machine.read context us = .ok after) : after.Reflects context (before ++ us) := by
  induction us generalizing machine before with
  | nil =>
    cases hread
    rwa [List.append_nil]
  | cons token us ih =>
    obtain ⟨next, hstep, hread⟩ := read_cons_eq_ok.1 hread
    have := ih (h.step hstep) hread
    rwa [List.append_assoc, List.singleton_append] at this

/-! ## Complaints -/

/-- What is wrong after an operand is told by the innermost open parenthesis. -/
theorem complaint_of_complete {levels : List Level} {pending : Pending} {operand : Expr}
    {bare : Bool} (token : Token) :
    complaint ⟨levels, pending, .complete operand bare⟩ token =
      (Enclosure.ofLevel? levels.head?).noOperator token := by
  match levels with
  | [] => rfl
  | ⟨.group, _⟩ :: _ => rfl
  | ⟨.call .., _⟩ :: _ => rfl

/-- **A machine complains as the diagnosis says.** -/
theorem Reflects.complaint_eq (h : machine.Reflects context before) (token : Token) :
    machine.complaint token = context.diagnosis before token := by
  obtain ⟨hphase, hlevels⟩ := h
  have henclosure : context.enclosure before = .ofLevel? machine.levels.head? := by
    rw [Context.enclosure, hlevels, List.head?_eq_getElem?]
  obtain ⟨levels, pending, phase⟩ := machine
  dsimp only at hphase henclosure
  generalize hlast : before.getLast? = last at hphase
  unfold Context.diagnosis
  rw [hlast]
  cases hphase with
  | start => rfl
  | begin hkind => rcases hkind with h | h <;> simp [h, Kind.isOperator] <;> rfl
  | operand hoperator => simp [hoperator, complaint]
  | callee hfunction =>
    have hkind := Context.kind_of_isFunction hfunction
    simp [hkind, hfunction, Kind.isOperator, complaint]
  | complete hkind =>
    rw [complaint_of_complete, ← henclosure]
    rcases hkind with h | h | h | ⟨h, hfunction⟩
    · simp [h, Kind.isOperator, Context.isFunction]
    · simp [h, Kind.isOperator, Context.isFunction]
    · simp [h, Kind.isOperator, Context.isFunction]
    · simp [h, hfunction, Kind.isOperator]

/-- A token that begins no operand is refused. What is pending makes no difference. -/
theorem eq_complaint_of_beginOperand {levels : List Level} {pending pending' : Pending}
    {phase : Phase} {error : Located SyntaxError}
    (h : beginOperand context ⟨levels, pending', phase⟩ token = .error error)
    (hrefusal : error.value.IsRefusal) :
    error = ⟨complaint ⟨levels, pending, phase⟩ token, token.span⟩ := by
  unfold beginOperand at h
  split at h
  · cases h
  · split at h
    · cases h
      exact hrefusal.elim
    · cases h
    · cases h
  · cases h
  · cases h
    rfl

/-- The end of a call is never refused. -/
theorem not_isRefusal_of_endCall {name : Token} {arity : Nat} {arguments : List Expr}
    {outer : Pending} {levels : List Level} {error : Located SyntaxError}
    (h : endCall name arity arguments outer levels token = .error error) :
    ¬ error.value.IsRefusal := by
  unfold endCall at h
  split at h
  · cases h
  · cases h
    exact id

/-- After a whole expression the complaint is that of the machine. -/
theorem eq_complaint_of_stepExpression {expression : Expr} {error : Located SyntaxError}
    (h : machine.stepExpression expression token = .error error)
    (hrefusal : error.value.IsRefusal) : error = ⟨machine.complaint token, token.span⟩ := by
  unfold stepExpression at h
  split at h
  · cases h
  · exact absurd hrefusal (not_isRefusal_of_endCall h)
  · cases h
  · cases h
    rfl

/-- **What refuses a token in a step is its complaint.** -/
theorem eq_complaint_of_step {error : Located SyntaxError}
    (h : machine.step context token = .error error) (hrefusal : error.value.IsRefusal) :
    error = ⟨machine.complaint token, token.span⟩ := by
  obtain ⟨levels, pending, phase⟩ := machine
  cases phase with
  | start =>
    simp only [Machine.step, stepStart] at h
    split at h
    · cases h
    · exact absurd hrefusal (not_isRefusal_of_endCall h)
    · exact eq_complaint_of_beginOperand h hrefusal
  | operand operator signed =>
    simp only [Machine.step, stepOperand] at h
    split at h
    · cases h
    · exact eq_complaint_of_beginOperand h hrefusal
  | callee name arity =>
    simp only [Machine.step, stepCallee] at h
    split at h
    · cases h
    · cases h
      rfl
  | complete operand bare =>
    simp only [Machine.step, stepComplete] at h
    split at h
    · split at h
      · cases h
      · cases h
        rfl
    · cases h
    · cases h
    · cases h
    · cases h
    · cases h
    · exact eq_complaint_of_beginOperand h hrefusal
    · exact eq_complaint_of_beginOperand h hrefusal
    · exact eq_complaint_of_beginOperand h hrefusal
    · exact eq_complaint_of_stepExpression h hrefusal

/-- The end of the input is refused with the complaint too. -/
theorem eq_complaint_of_finish {error : Located SyntaxError}
    (h : machine.finish token = .error error) : error = ⟨machine.complaint token, token.span⟩ := by
  unfold finish at h
  split at h
  · cases h
  · cases h
    rfl

end Machine

/-! ## Errors -/

/-- An operator is named as missing its operand only right after it. -/
theorem Context.eq_of_diagnosis_eq {operator found : Kind}
    (h : context.diagnosis before token = .missingOperand operator found) :
    found = token.kind ∧ ∃ last ∈ before.getLast?, last.kind = operator ∧ operator.isOperator := by
  unfold diagnosis at h
  split at h
  · unfold Token.noExpression at h
    split at h <;> cases h
  · rename_i last hlast
    split at h
    · rename_i hoperator
      cases h
      exact ⟨rfl, last, hlast, rfl, hoperator⟩
    · split at h
      · unfold Token.noExpression at h
        split at h <;> cases h
      · split at h
        · cases h
        · generalize context.enclosure before = enclosure at h
          cases enclosure <;> cases h

/-- **A refusal is the diagnosis of some token.** -/
theorem exists_diagnosis_of_parse {source : String} {error : Located SyntaxError}
    (h : parse context source = .error error) (hrefusal : error.value.IsRefusal) :
    ∃ before token rest, (TokenStream.ofString source).all = before ++ token :: rest ∧
      error = ⟨context.diagnosis before token, token.span⟩ := by
  rcases stops_of_parse h with @⟨before, rest, token, _, _, htokens, hread, hstep⟩ |
    @⟨last, _, _, hending, hread, hfinish⟩ | ⟨-, -⟩
  · have hreflects := Machine.reflects_start.read hread
    refine ⟨before, token, rest ++ (TokenStream.ofString source).ending.toOption.toList, ?_, ?_⟩
    · rw [TokenStream.all, htokens, List.append_assoc, List.cons_append]
    · rw [Machine.eq_complaint_of_step hstep hrefusal, hreflects.complaint_eq, List.nil_append]
  · have hreflects := Machine.reflects_start.read hread
    refine ⟨(TokenStream.ofString source).tokens, last, [], ?_, ?_⟩
    · rw [TokenStream.all, hending]
      rfl
    · rw [Machine.eq_complaint_of_finish hfinish, hreflects.complaint_eq, List.nil_append]
  · exact hrefusal.elim

/-- **What a refusal says is told by the token it refuses, the one before and
the innermost open parenthesis.** It is located at one token of the source and
is its diagnosis; so the operator that it names as missing an operand is the
one right before. -/
theorem refusal_eq_diagnosis (context : Context) (source : String) (error : Located SyntaxError)
    (h : parse context source = .error error) (hrefusal : error.value.IsRefusal) :
    (∃ before token rest, (TokenStream.ofString source).all = before ++ token :: rest ∧
        error.span = token.span) ∧
      ∀ before token rest, (TokenStream.ofString source).all = before ++ token :: rest →
        error.span = token.span →
          error.value = context.diagnosis before token ∧
            ∀ operator found, error.value = .missingOperand operator found →
              found = token.kind ∧
                ∃ last ∈ before.getLast?, last.kind = operator ∧ operator.isOperator := by
  obtain ⟨before, token, rest, hall, rfl⟩ := exists_diagnosis_of_parse h hrefusal
  refine ⟨⟨before, token, rest, hall, rfl⟩, fun before' token' rest' hall' hspan => ?_⟩
  have hstart : (Cursor.ofString source).place.In source.toList := ⟨Nat.zero_le _, rfl⟩
  have hordered : (TokenStream.ofString source).Ordered (Cursor.ofString source).pos :=
    TokenStream.ordered_ofCursor hstart
  have hpairwise := hordered.pairwise_start_lt
  rw [hall] at hpairwise hall'
  obtain ⟨rfl, rfl⟩ := TokenStream.eq_of_append_cons_eq hpairwise hall' (congrArg Span.start hspan)
  exact ⟨rfl, fun operator found => Context.eq_of_diagnosis_eq⟩

/-- A parenthesis that is closed again leaves the arguments of the call open.
An operator is due an operand also where the source is no token further on. -/
theorem refusal_in_call_and_after_operator :
    (parse (.sample 2.0) "f(x,(x)" =
        .error ⟨.unexpectedToken [.comma, .closeParen] .endOfInput, 7, 7⟩ ∧
      ∃ before token rest, (TokenStream.ofString "f(x,(x)").all = before ++ token :: rest ∧
        Span.mk 7 7 = token.span ∧
        .unexpectedToken [.comma, .closeParen] .endOfInput =
          (Context.sample 2.0).diagnosis before token) ∧
    parse (.sample 2.0) "-x*!@" = .error ⟨.missingOperand .star .bang, 3, 4⟩ ∧
      ∃ before token rest, (TokenStream.ofString "-x*!@").all = before ++ token :: rest ∧
        Span.mk 3 4 = token.span ∧
        .missingOperand .star .bang = (Context.sample 2.0).diagnosis before token := by
  have hcall (value : Float) : parse (.sample value) "f(x,(x)" =
      .error ⟨.unexpectedToken [.comma, .closeParen] .endOfInput, 7, 7⟩ := by
    cbv
  have hoperator (value : Float) : parse (.sample value) "-x*!@" =
      .error ⟨.missingOperand .star .bang, 3, 4⟩ := by
    cbv
  obtain ⟨⟨before, token, rest, hall, hspan⟩, hunique⟩ :=
    refusal_eq_diagnosis _ _ _ (hcall 2.0) trivial
  obtain ⟨⟨before', token', rest', hall', hspan'⟩, hunique'⟩ :=
    refusal_eq_diagnosis _ _ _ (hoperator 2.0) trivial
  exact ⟨⟨hcall 2.0, before, token, rest, hall, hspan, (hunique _ _ _ hall hspan).1⟩,
    hoperator 2.0, before', token', rest', hall', hspan', (hunique' _ _ _ hall' hspan').1⟩

end Calculator
