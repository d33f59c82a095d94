import Mathlib.Data.List.Forall2
import Calculator.Proofs.Grammar.Names
import Calculator.Proofs.Grammar.Run
/-!
# Two runs side by side

Two machines are fed tokens pair by pair. A `Pairing` says what the tokens of a
pair have in common: their kind, their text up to a change of names, the number
they denote, and what they stand for, each in its own context. Nothing else of a
token decides how a machine goes on, so the machines keep step
(`Pairing.step`, `Pairing.read`): they end in trees that are alike up to the change
of names, or both refuse, and what they say then is alike too and located at tokens
that are paired (`Pairing.finish`).
-/

namespace Calculator

/-- How many arguments a function takes. A variable takes none. -/
def Meaning.arity? : Meaning → Option Nat
  | .var _ => none
  | .fn operation => some operation.arity

/-- **What the tokens of a pair have in common**, as far as a machine can tell. -/
structure Pairing (f : String → String) (context context' : Context)
    (pair : Token → Token → Prop) : Prop where
  kind_eq {token token' : Token} : pair token token' → token'.kind = token.kind
  text_eq {token token' : Token} : pair token token' → f token'.text = f token.text
  value_eq {token token' : Token} : pair token token' → token.kind = .number →
    Literal.valueOf token'.text = Literal.valueOf token.text
  lookup_eq {token token' : Token} : pair token token' → token.kind = .identifier →
    (context'.lookup token'.text).map Meaning.arity? =
      (context.lookup token.text).map Meaning.arity?

variable (f : String → String) (pair : Token → Token → Prop)

/-! ## What two runs have in common -/

/-- Open parentheses of one sort, the arguments so far alike. -/
inductive Bracket.Paired : Bracket → Bracket → Prop
  | group : Bracket.Paired .group .group
  | call {name name' : Token} {arity : Nat} {arguments arguments' : List Expr} :
      pair name name' → arguments'.map (Expr.mapNames f) = arguments.map (Expr.mapNames f) →
      Bracket.Paired (.call name arity arguments) (.call name' arity arguments')

/-- What waits outside them is alike too. -/
structure Level.Paired (level level' : Level) : Prop where
  bracket : Bracket.Paired f pair level.bracket level'.bracket
  outer : level'.outer.mapNames f = level.outer.mapNames f

/-- The same may come next. -/
inductive Phase.Paired : Phase → Phase → Prop
  | start : Phase.Paired .start .start
  | operand {operator : Kind} {signed : Bool} :
      Phase.Paired (.operand operator signed) (.operand operator signed)
  | callee {name name' : Token} {arity : Nat} : pair name name' →
      Phase.Paired (.callee name arity) (.callee name' arity)
  | complete {operand operand' : Expr} {bare : Bool} :
      operand'.mapNames f = operand.mapNames f →
      Phase.Paired (.complete operand bare) (.complete operand' bare)

/-- **The machines have read the same**, up to names and the places of tokens. -/
structure Machine.Paired (machine machine' : Machine) : Prop where
  levels : List.Forall₂ (Level.Paired f pair) machine.levels machine'.levels
  pending : machine'.pending.mapNames f = machine.pending.mapNames f
  phase : Phase.Paired f pair machine.phase machine'.phase

/-- **Errors that are alike**, each at its token, or at the call between the name
of a function and the parenthesis that closes it. -/
inductive SyntaxError.Paired : Located SyntaxError → Located SyntaxError → Prop
  | token {token token' : Token} {error error' : SyntaxError} : pair token token' →
      error'.mapText f = error.mapText f →
      SyntaxError.Paired ⟨error, token.span⟩ ⟨error', token'.span⟩
  | call {name name' closing closing' : Token} {mismatch mismatch' : ArityMismatch} :
      pair name name' → pair closing closing' → mismatch'.mapName f = mismatch.mapName f →
      SyntaxError.Paired ⟨.arityMismatch mismatch, name.start, closing.stop⟩
        ⟨.arityMismatch mismatch', name'.start, closing'.stop⟩

/-- Two outcomes that are good in the same way, or errors that are alike. -/
inductive Outcome.Paired {α : Type} (good : α → α → Prop) :
    Except (Located SyntaxError) α → Except (Located SyntaxError) α → Prop
  | ok {a a' : α} : good a a' → Outcome.Paired good (.ok a) (.ok a')
  | error {error error' : Located SyntaxError} : SyntaxError.Paired f pair error error' →
      Outcome.Paired good (.error error) (.error error')

variable {f pair}

/-- Two runs that keep together so far do so with what keeps together after it. -/
theorem Outcome.Paired.bind {α β : Type} {good : α → α → Prop} {good' : β → β → Prop}
    {outcome outcome' : Except (Located SyntaxError) α}
    {next next' : α → Except (Located SyntaxError) β}
    (h : Outcome.Paired f pair good outcome outcome')
    (hnext : ∀ a a', good a a' → Outcome.Paired f pair good' (next a) (next' a')) :
    Outcome.Paired f pair good' (outcome.bind next) (outcome'.bind next') := by
  cases h with
  | ok hgood => exact hnext _ _ hgood
  | error herror => exact .error herror

namespace Pairing

variable {context context' : Context} {machine machine' : Machine} {token token' : Token}
variable {levels levels' : List Level} {pending pending' : Pending} {operand operand' : Expr}

/-- Nothing has been read by either. -/
theorem start : Machine.Paired f pair .start .start :=
  ⟨.nil, rfl, .start⟩

/-! ## Steps -/

/-- **Both refuse**, and say the same. -/
theorem refuse (h : Pairing f context context' pair) {α : Type} {good : α → α → Prop}
    (hmachine : Machine.Paired f pair machine machine') (hpair : pair token token') :
    Outcome.Paired f pair good (machine.refuse token) (machine'.refuse token') := by
  refine .error (.token hpair ?_)
  obtain ⟨levels, pending, phase⟩ := machine
  obtain ⟨levels', pending', phase'⟩ := machine'
  obtain ⟨hlevels, -, hphase⟩ := hmachine
  have hkind := h.kind_eq hpair
  have htext := h.text_eq hpair
  unfold Machine.complaint
  cases hphase with
  | start => rw [hkind]
  | operand => rw [hkind]
  | callee => rw [hkind]
  | complete =>
    dsimp only at hlevels ⊢
    cases hlevels with
    | nil => exact congrArg SyntaxError.trailingInput htext
    | @cons level level' _ _ hlevel _ =>
      obtain ⟨bracket, outer⟩ := level
      obtain ⟨bracket', outer'⟩ := level'
      obtain ⟨hbracket, -⟩ := hlevel
      cases hbracket with
      | group => rw [hkind]
      | call => rw [hkind]

/-- The operand is complete for both. -/
theorem completed (hmachine : Machine.Paired f pair machine machine')
    (hoperand : operand'.mapNames f = operand.mapNames f) :
    Machine.Paired f pair (machine.completed operand) (machine'.completed operand') :=
  ⟨hmachine.levels, hmachine.pending, .complete hoperand⟩

/-- Both begin an operand. -/
theorem beginOperand (h : Pairing f context context' pair)
    (hmachine : Machine.Paired f pair machine machine') (hpair : pair token token') :
    Outcome.Paired f pair (Machine.Paired f pair) (machine.beginOperand context token)
      (machine'.beginOperand context' token') := by
  have hkind := h.kind_eq hpair
  have htext := h.text_eq hpair
  unfold Machine.beginOperand
  rw [hkind]
  split
  · rename_i hnumber
    rw [h.value_eq hpair hnumber]
    exact .ok (completed hmachine rfl)
  · rename_i hidentifier
    have hlookup := h.lookup_eq hpair hidentifier
    cases hmeaning : context.lookup token.text with
    | none =>
      rw [hmeaning, Option.map_none, Option.map_eq_none_iff] at hlookup
      rw [hlookup]
      exact .error (.token hpair (congrArg SyntaxError.undefinedIdentifier htext))
    | some meaning =>
      rw [hmeaning, Option.map_some, Option.map_eq_some_iff] at hlookup
      obtain ⟨meaning', hmeaning', harity⟩ := hlookup
      rw [hmeaning']
      match meaning, meaning', harity with
      | .var _, .var _, _ => exact .ok (completed hmachine (congrArg Expr.var htext))
      | .fn operation, .fn operation', harity =>
        dsimp only
        rw [Option.some.inj harity]
        exact .ok ⟨hmachine.levels, hmachine.pending, .callee hpair⟩
  · exact .ok ⟨.cons ⟨.group, hmachine.pending⟩ hmachine.levels, rfl, .start⟩
  · exact h.refuse hmachine hpair

/-- Both take a sign. -/
theorem takeSign (hmachine : Machine.Paired f pair machine machine') :
    Machine.Paired f pair machine.takeSign machine'.takeSign := by
  refine ⟨hmachine.levels, ?_, .operand⟩
  simp only [Machine.takeSign, Pending.negate_mapNames, hmachine.pending]

/-- **Both count the arguments of a call.** -/
theorem endCall {name name' : Token} {arity : Nat} {arguments arguments' : List Expr}
    (h : Pairing f context context' pair) (hname : pair name name')
    (harguments : arguments'.map (Expr.mapNames f) = arguments.map (Expr.mapNames f))
    (hpending : pending'.mapNames f = pending.mapNames f)
    (hlevels : List.Forall₂ (Level.Paired f pair) levels levels') (hpair : pair token token') :
    Outcome.Paired f pair (Machine.Paired f pair)
      (Machine.endCall name arity arguments pending levels token)
      (Machine.endCall name' arity arguments' pending' levels' token') := by
  have htext := h.text_eq hname
  have hlength : arguments'.length = arguments.length := by
    simpa only [List.length_map] using congrArg List.length harguments
  unfold Machine.endCall
  rw [hlength]
  split
  · refine .ok ⟨hlevels, hpending, .complete ?_⟩
    simp only [Expr.mapNames, Expr.mapAllNames_eq_map, List.map_reverse, harguments, htext]
  · exact .error (.call hname hpair (by rw [ArityMismatch.mapName, ArityMismatch.mapName, htext]))

/-- Both begin an expression, or end a call that was just opened. -/
theorem stepStart (h : Pairing f context context' pair)
    (hmachine : Machine.Paired f pair machine machine') (hpair : pair token token') :
    Outcome.Paired f pair (Machine.Paired f pair) (machine.stepStart context token)
      (machine'.stepStart context' token') := by
  have hbegin := h.beginOperand hmachine hpair
  have hsign := takeSign hmachine
  obtain ⟨levels, pending, phase⟩ := machine
  obtain ⟨levels', pending', phase'⟩ := machine'
  have hlevels := hmachine.levels
  have hkind := h.kind_eq hpair
  unfold Machine.stepStart
  cases hkind' : token.kind with
  | minus =>
    rw [hkind, hkind']
    exact .ok hsign
  | closeParen =>
    rw [hkind, hkind']
    dsimp only at hlevels ⊢
    cases hlevels with
    | nil => exact hbegin
    | @cons level level' _ _ hlevel hlevels =>
      obtain ⟨bracket, outer⟩ := level
      obtain ⟨bracket', outer'⟩ := level'
      obtain ⟨hbracket, houter⟩ := hlevel
      cases hbracket with
      | group => exact hbegin
      | @call name name' arity arguments arguments' hname harguments =>
        -- The parenthesis ends the call only if no argument was read, in either run.
        cases arguments with
        | nil =>
          obtain rfl : arguments' = [] := by simpa using harguments
          exact h.endCall hname harguments houter hlevels hpair
        | cons argument arguments =>
          obtain ⟨argument', rest, rfl, -⟩ := List.map_eq_cons_iff.1 harguments
          exact hbegin
  | _ =>
    rw [hkind, hkind']
    exact hbegin

/-- Both begin the operand of an operator. -/
theorem stepOperand (h : Pairing f context context' pair)
    (hmachine : Machine.Paired f pair machine machine') (hpair : pair token token')
    (signed : Bool) :
    Outcome.Paired f pair (Machine.Paired f pair) (machine.stepOperand context signed token)
      (machine'.stepOperand context' signed token') := by
  unfold Machine.stepOperand
  rw [h.kind_eq hpair]
  split
  · exact .ok (takeSign hmachine)
  · exact h.beginOperand hmachine hpair

/-- Both open a call. -/
theorem stepCallee (h : Pairing f context context' pair)
    (hmachine : Machine.Paired f pair machine machine') (hpair : pair token token')
    {name name' : Token} {arity : Nat} (hname : pair name name') :
    Outcome.Paired f pair (Machine.Paired f pair) (machine.stepCallee name arity token)
      (machine'.stepCallee name' arity token') := by
  unfold Machine.stepCallee
  rw [h.kind_eq hpair]
  split
  · exact .ok ⟨.cons ⟨.call hname rfl, hmachine.pending⟩ hmachine.levels, rfl, .start⟩
  · exact h.refuse hmachine hpair

/-- Both end a group, an argument or a call. -/
theorem stepExpression (h : Pairing f context context' pair)
    (hmachine : Machine.Paired f pair machine machine') (hpair : pair token token')
    (hoperand : operand'.mapNames f = operand.mapNames f) :
    Outcome.Paired f pair (Machine.Paired f pair) (machine.stepExpression operand token)
      (machine'.stepExpression operand' token') := by
  have hrefuse : Outcome.Paired f pair (Machine.Paired f pair) (machine.refuse token)
      (machine'.refuse token') := h.refuse hmachine hpair
  obtain ⟨levels, pending, phase⟩ := machine
  obtain ⟨levels', pending', phase'⟩ := machine'
  have hlevels := hmachine.levels
  have hkind := h.kind_eq hpair
  unfold Machine.stepExpression
  dsimp only at hlevels ⊢
  cases hlevels with
  | nil =>
    rw [hkind]
    cases token.kind <;> exact hrefuse
  | @cons level level' _ _ hlevel hlevels =>
    obtain ⟨bracket, outer⟩ := level
    obtain ⟨bracket', outer'⟩ := level'
    obtain ⟨hbracket, houter⟩ := hlevel
    cases hbracket with
    | group =>
      rw [hkind]
      cases token.kind with
      | closeParen => exact .ok ⟨hlevels, houter, .complete hoperand⟩
      | _ => exact hrefuse
    | @call name name' arity arguments arguments' hname harguments =>
      have hall : (operand' :: arguments').map (Expr.mapNames f) =
          (operand :: arguments).map (Expr.mapNames f) := by
        rw [List.map_cons, List.map_cons, hoperand, harguments]
      rw [hkind]
      cases token.kind with
      | closeParen => exact h.endCall hname hall houter hlevels hpair
      | comma => exact .ok ⟨.cons ⟨.call hname hall, houter⟩ hlevels, rfl, .start⟩
      | _ => exact hrefuse

/-- Both go on after an operand. -/
theorem stepComplete (h : Pairing f context context' pair)
    (hmachine : Machine.Paired f pair machine machine') (hpair : pair token token')
    (hoperand : operand'.mapNames f = operand.mapNames f) (bare : Bool) :
    Outcome.Paired f pair (Machine.Paired f pair)
      (machine.stepComplete context operand bare token)
      (machine'.stepComplete context' operand' bare token') := by
  have hlevels := hmachine.levels
  have hpending := hmachine.pending
  have hkind := h.kind_eq hpair
  have hjuxtapose : Machine.Paired f pair
      { machine with pending := machine.pending.juxtapose operand }
      { machine' with pending := machine'.pending.juxtapose operand' } := by
    refine ⟨hlevels, ?_, hmachine.phase⟩
    rw [Pending.juxtapose_mapNames, Pending.juxtapose_mapNames, hpending, hoperand]
  have hterm (op : BinaryOp) : (machine'.pending.extendTerm operand' op).mapNames f =
      (machine.pending.extendTerm operand op).mapNames f := by
    rw [Pending.extendTerm_mapNames, Pending.extendTerm_mapNames, hpending, hoperand]
  have hsum (op : BinaryOp) : (machine'.pending.extendSum operand' op).mapNames f =
      (machine.pending.extendSum operand op).mapNames f := by
    rw [Pending.extendSum_mapNames, Pending.extendSum_mapNames, hpending, hoperand]
  have hexpression : (machine'.pending.expression operand').mapNames f =
      (machine.pending.expression operand).mapNames f := by
    rw [Pending.expression_mapNames, Pending.expression_mapNames, hpending, hoperand]
  unfold Machine.stepComplete Machine.stepComplete.continueWith
  dsimp only
  rw [hkind]
  cases token.kind with
  | bang =>
    cases bare with
    | true => exact .ok ⟨hlevels, hpending, .complete (congrArg Expr.fact hoperand)⟩
    | false => exact h.refuse hmachine hpair
  | caret =>
    refine .ok ⟨hlevels, ?_, .operand⟩
    rw [Pending.raise_mapNames, Pending.raise_mapNames, hpending, hoperand]
  | star => exact .ok ⟨hlevels, hterm .mul, .operand⟩
  | slash => exact .ok ⟨hlevels, hterm .div, .operand⟩
  | plus => exact .ok ⟨hlevels, hsum .add, .operand⟩
  | minus => exact .ok ⟨hlevels, hsum .sub, .operand⟩
  | number | identifier | openParen => exact h.beginOperand hjuxtapose hpair
  | closeParen | comma | endOfInput => exact h.stepExpression hmachine hpair hexpression

/-- **Two machines keep step.** -/
theorem step (h : Pairing f context context' pair)
    (hmachine : Machine.Paired f pair machine machine') (hpair : pair token token') :
    Outcome.Paired f pair (Machine.Paired f pair) (machine.step context token)
      (machine'.step context' token') := by
  obtain ⟨levels, pending, phase⟩ := machine
  obtain ⟨levels', pending', phase'⟩ := machine'
  have hphase := hmachine.phase
  dsimp only at hphase
  cases hphase with
  | start => exact h.stepStart hmachine hpair
  | operand => exact h.stepOperand hmachine hpair _
  | callee hname => exact h.stepCallee hmachine hpair hname
  | complete hoperand => exact h.stepComplete hmachine hpair hoperand _

/-! ## Runs -/

/-- **So they do over a whole list of pairs.** -/
theorem read (h : Pairing f context context' pair) {tokens tokens' : List Token}
    (hmachine : Machine.Paired f pair machine machine')
    (htokens : List.Forall₂ pair tokens tokens') :
    Outcome.Paired f pair (Machine.Paired f pair) (machine.read context tokens)
      (machine'.read context' tokens') := by
  -- On the pairs, for any two machines that have read the same.
  induction htokens generalizing machine machine' with
  | nil => exact .ok hmachine
  | cons hpair _ ih =>
    rw [Machine.read_cons, Machine.read_cons]
    exact (h.step hmachine hpair).bind fun next next' hnext => ih hnext

/-- **And they end in trees that are alike**, or both refuse the end of the input. -/
theorem finish (h : Pairing f context context' pair)
    (hmachine : Machine.Paired f pair machine machine') (hpair : pair token token') :
    Outcome.Paired f pair (fun tree tree' : Expr => tree'.mapNames f = tree.mapNames f)
      (machine.finish token) (machine'.finish token') := by
  have hrefuse : Outcome.Paired f pair
      (fun tree tree' : Expr => tree'.mapNames f = tree.mapNames f)
      (machine.refuse token) (machine'.refuse token') := h.refuse hmachine hpair
  obtain ⟨levels, pending, phase⟩ := machine
  obtain ⟨levels', pending', phase'⟩ := machine'
  obtain ⟨hlevels, hpending, hphase⟩ := hmachine
  unfold Machine.finish
  dsimp only at hlevels hpending hphase ⊢
  cases hphase with
  | start | operand | callee => exact hrefuse
  | complete hoperand =>
    cases hlevels with
    | nil =>
      refine .ok ?_
      rw [Pending.expression_mapNames, Pending.expression_mapNames, hpending, hoperand]
    | cons => exact hrefuse

/-- **Sources whose tokens are paired parse alike.** -/
theorem parse (h : Pairing f context context' pair) {source source' : String}
    {all all' : List Token} (hall : tokenize source = .ok all)
    (hall' : tokenize source' = .ok all') (hpairs : List.Forall₂ pair all all') :
    Outcome.Paired f pair (fun tree tree' : Expr => tree'.mapNames f = tree.mapNames f)
      (Calculator.parse context source) (Calculator.parse context' source') := by
  obtain ⟨tokens, last, rfl, -, -, hparse⟩ := parse_eq_of_tokenize hall
  obtain ⟨tokens', last', rfl, -, -, hparse'⟩ := parse_eq_of_tokenize hall'
  rw [← List.forall₂_reverse_iff, List.reverse_concat, List.reverse_concat, List.forall₂_cons,
    List.forall₂_reverse_iff] at hpairs
  obtain ⟨hlast, htokens⟩ := hpairs
  rw [hparse, hparse']
  exact (h.read start htokens).bind fun machine machine' hmachine => h.finish hmachine hlast

end Pairing

end Calculator
