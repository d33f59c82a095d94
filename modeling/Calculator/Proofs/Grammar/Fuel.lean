import Calculator.Proofs.Grammar.Headway
import Calculator.Proofs.Grammar.OnDemand
/-!
# Runs with enough fuel

A run by fuel does as the descent does that has a reason to end (`Traced.Agrees`): it
comes to the same error, or goes a stretch of its log and is where the value is. The
rules of `Agrees` go along what routines do. Each routine then agrees with its
counterpart if all do with less fuel, and so they all do wherever the weight they have
there is below their fuel (`Traced.agreement`). Twelve for each character of a source,
and twelve more, are enough for all of it, and tokens need one for each character and
one more (`reading_never_runs_out`).
-/

namespace Calculator

namespace Traced

open Descent (Outcome Parsed Taken Next)

variable {α β γ δ : Type} {cursor middle last : Cursor} {bound lower least fuel : Nat}
variable {events : List Event} {traced later : Traced α} {token : Token}

/-! ## What a run comes to -/

/-- **A run comes to an outcome**, and its log is closed. -/
def Closes (traced : Traced α) (cursor : Cursor) (bound : Nat) (outcome : Outcome α) : Prop :=
  ∃ last events, Closed cursor bound events last outcome ∧
    ∀ log, traced ⟨cursor, log⟩ = (outcome.mapError .failed, ⟨last, log ++ events⟩)

/-- **A run agrees with an outcome**: it comes to the error that it is, or its log is a
stretch that leads to where the value is. -/
def Agrees (outcome : Outcome β) (traced : Traced α) (cursor : Cursor) (bound : Nat)
    (post : β → α → Cursor → Nat → Prop) : Prop :=
  match outcome with
  | .error error => Closes traced cursor bound (.error error)
  | .ok value => ∃ result last least events, post value result last least ∧
      Leg cursor bound events last least ∧
      ∀ log, traced ⟨cursor, log⟩ = (.ok result, ⟨last, log ++ events⟩)

/-- A run goes a stretch first, and then as another. -/
def Leads (traced : Traced α) (cursor : Cursor) (bound : Nat) (later : Traced α)
    (middle : Cursor) (lower : Nat) : Prop :=
  ∃ events, Leg cursor bound events middle lower ∧
    ∀ log, traced ⟨cursor, log⟩ = later ⟨middle, log ++ events⟩

/-- A run that gives a value first leads on to what is done with it. -/
theorem leads_bind {f : α → Traced β} {value : α} (hleg : Leg cursor bound events middle lower)
    (h : ∀ log, traced ⟨cursor, log⟩ = (.ok value, ⟨middle, log ++ events⟩)) :
    Leads (traced >>= f) cursor bound (f value) middle lower := by
  refine ⟨events, hleg, fun log => ?_⟩
  show ExceptT.bindCont f (traced ⟨cursor, log⟩).1 (traced ⟨cursor, log⟩).2 = _
  rw [h]
  rfl

theorem leads_enter {routine : Routine} (h : routine.weight cursor < bound) :
    Leads (enter routine >>= fun _ => traced) cursor bound traced cursor (routine.weight cursor) :=
  leads_bind (.enter h .done) fun _ => rfl

theorem leads_peek {f : Token → Traced α} (h : cursor.nextToken = (.ok token, middle)) :
    Leads (peek >>= f) cursor bound (f token) cursor bound := by
  refine leads_bind (.look h .done) fun log => ?_
  rw [peek_eq, h]
  rfl

theorem leads_next {f : Token → Traced α} (h : cursor.nextToken = (.ok token, middle))
    (hkind : token.kind ≠ .endOfInput) :
    Leads (next >>= f) cursor bound (f token) middle bound := by
  refine leads_bind (.read h hkind .done) fun log => ?_
  rw [next_eq, h]
  rfl

namespace Closes

variable {outcome : Outcome α}

theorem of_leads (hleads : Leads traced cursor bound later middle lower)
    (h : Closes later middle lower outcome) : Closes traced cursor bound outcome := by
  obtain ⟨events, hleg, heq⟩ := hleads
  obtain ⟨last, more, hclosed, hlater⟩ := h
  refine ⟨last, events ++ more, hclosed.of_leg hleg, fun log => ?_⟩
  rw [heq, hlater, List.append_assoc]

/-- What halts goes no further. -/
theorem bind {error : Located SyntaxError} {f : α → Traced β}
    (h : Closes traced cursor bound (.error error)) :
    Closes (traced >>= f) cursor bound (.error error) := by
  obtain ⟨last, events, hclosed, heq⟩ := h
  refine ⟨last, events, hclosed.of_error, fun log => ?_⟩
  show ExceptT.bindCont f (traced ⟨cursor, log⟩).1 (traced ⟨cursor, log⟩).2 = _
  rw [heq]
  rfl

/-- A run that fails by itself. -/
theorem fail {error : Located SyntaxError} :
    Closes (Traced.fail error : Traced α) cursor bound (.error error) :=
  ⟨cursor, [], .failed .done, fun log => by rw [List.append_nil]; rfl⟩

/-- What is no token is what a look comes to. -/
theorem peek {error : Located LexError} {f : Token → Traced α}
    (h : cursor.nextToken = (.error error, middle)) :
    Closes (Traced.peek >>= f) cursor bound (.error (error.map .lexical)) := by
  refine bind ⟨cursor, _, .closing .done (.look h rfl), fun log => ?_⟩
  rw [peek_eq, h]
  rfl

/-- And what a read comes to. -/
theorem next {error : Located LexError} {f : Token → Traced α}
    (h : cursor.nextToken = (.error error, middle)) :
    Closes (Traced.next >>= f) cursor bound (.error (error.map .lexical)) := by
  refine bind ⟨middle, _, .closing .done (.read h rfl), fun log => ?_⟩
  rw [next_eq, h]
  rfl

/-- Nothing is done behind the end of the input. -/
theorem next_end {f : Token → Traced α} (h : cursor.nextToken = (.ok token, middle))
    (hkind : token.kind = .endOfInput)
    (hf : ∀ log, f token ⟨middle, log⟩ = (outcome.mapError .failed, ⟨middle, log⟩)) :
    Closes (Traced.next >>= f) cursor bound outcome := by
  refine ⟨middle, _, .closing .done (.atEnd h hkind), fun log => ?_⟩
  show ExceptT.bindCont f (Traced.next ⟨cursor, log⟩).1 (Traced.next ⟨cursor, log⟩).2 = _
  rw [next_eq, h]
  exact hf _

/-- A token that fails ends the run. -/
theorem next_fail {error : Located SyntaxError} {f : Token → Traced α}
    (h : cursor.nextToken = (.ok token, middle)) (hf : f token = Traced.fail error) :
    Closes (Traced.next >>= f) cursor bound (.error error) := by
  by_cases hkind : token.kind = .endOfInput
  · exact next_end h hkind fun log => by rw [hf]; rfl
  · refine of_leads (leads_next h hkind) ?_
    rw [hf]
    exact fail

end Closes

namespace Agrees

variable {post : γ → α → Cursor → Nat → Prop} {mid : β → α → Cursor → Nat → Prop}

/-- A value that is there already. -/
theorem pure {value : γ} {result : α} (h : post value result cursor bound) :
    Agrees (Pure.pure value) (Pure.pure result) cursor bound post :=
  ⟨result, cursor, bound, [], h, .done, fun log => by rw [List.append_nil]; rfl⟩

theorem of_leads {outcome : Outcome γ} (hleads : Leads traced cursor bound later middle lower)
    (h : Agrees outcome later middle lower post) :
    Agrees outcome traced cursor bound post := by
  cases outcome with
  | error error => exact Closes.of_leads hleads h
  | ok value =>
    obtain ⟨events, hleg, heq⟩ := hleads
    obtain ⟨result, last, least, more, hpost, hmore, hlater⟩ := h
    refine ⟨result, last, least, events ++ more, hpost, hleg.trans hmore, fun log => ?_⟩
    rw [heq, hlater, List.append_assoc]

/-- A routine is come to that weighs less than those before. -/
theorem enter {routine : Routine} {rank : Nat} {outcome : Outcome γ}
    (hlt : 12 * cursor.ahead.length + rank < bound) (hrank : routine.rank = rank)
    (h : Agrees outcome traced cursor (12 * cursor.ahead.length + rank) post) :
    Agrees outcome (Traced.enter routine >>= fun _ => traced) cursor bound post := by
  subst hrank
  exact of_leads (leads_enter hlt) h

/-- One run after another. -/
theorem bind {post : γ → δ → Cursor → Nat → Prop} {outcome : Outcome β} {f : α → Traced δ}
    {g : β → Outcome γ} (h : Agrees outcome traced cursor bound mid)
    (hf : ∀ value result last least, least ≤ bound → mid value result last least →
      Agrees (g value) (f result) last least post) :
    Agrees (outcome >>= g) (traced >>= f) cursor bound post := by
  cases outcome with
  | error error => exact Closes.bind h
  | ok value =>
    obtain ⟨result, last, least, events, hmid, hleg, heq⟩ := h
    have hle := hleg.entries_le
    exact of_leads (leads_bind hleg heq) (hf value result last least (by omega) hmid)

/-- The value may be put otherwise. -/
theorem map {outcome : Outcome β} {f : β → γ} (h : Agrees outcome traced cursor bound mid)
    (hf : ∀ value result last least, mid value result last least →
      post (f value) result last least) :
    Agrees (outcome >>= fun value => Pure.pure (f value)) traced cursor bound post := by
  cases outcome with
  | error error => exact h
  | ok value =>
    obtain ⟨result, last, least, events, hmid, hrun⟩ := h
    exact ⟨result, last, least, events, hf value result last least hmid, hrun⟩

/-- A run behind it that comes to an outcome closes the log. -/
theorem closes {outcome : Outcome β} {f : α → Traced δ} {g : β → Outcome δ}
    (h : Agrees outcome traced cursor bound mid)
    (hf : ∀ value result last least, mid value result last least →
      Closes (f result) last least (g value)) :
    Closes (traced >>= f) cursor bound (outcome >>= g) := by
  cases outcome with
  | error error => exact Closes.bind h
  | ok value =>
    obtain ⟨result, last, least, events, hmid, hleg, heq⟩ := h
    exact .of_leads (leads_bind hleg heq) (hf value result last least hmid)

/-- What is said without the source. -/
theorem ofOutcome (outcome : Outcome α) {f : α → γ}
    (h : ∀ value, post (f value) value cursor bound) :
    Agrees (outcome >>= fun value => Pure.pure (f value)) (Traced.ofOutcome outcome) cursor bound
      post := by
  cases outcome with
  | error error => exact Closes.fail
  | ok value => exact pure (h value)

/-- A look at the next token. -/
theorem peek {f : Token → Traced α} {g : Taken cursor Token → Outcome γ}
    (h : ∀ token after, TokenSource.next cursor = (.ok token, after) →
      Agrees (g ⟨token, cursor, Nat.le_refl _⟩) (f token) cursor bound post) :
    Agrees (Descent.peek cursor >>= g) (Traced.peek >>= f) cursor bound post := by
  unfold Descent.peek
  split
  · rename_i error rest hpeek
    rw [TokenSource.peek_eq, Prod.mk.injEq] at hpeek
    exact Closes.peek (Prod.ext hpeek.1 rfl)
  · rename_i token rest hpeek
    rw [TokenSource.peek_eq, Prod.mk.injEq] at hpeek
    obtain ⟨hnext, rfl⟩ := hpeek
    have hread : cursor.nextToken = (.ok token, cursor.nextToken.2) := Prod.ext hnext rfl
    exact of_leads (leads_peek hread) (h token _ hread)

/-- The next token is read. If it fails nothing is done behind it, and so it is with the
end of the input. -/
theorem next {f : Token → Traced α} {g : Next cursor → Outcome γ}
    (h : ∀ token : Next cursor, TokenSource.next cursor = (.ok token.value, token.rest) →
      (∃ error, g token = .error error ∧ f token.value = fail error) ∨
      token.value.kind ≠ .endOfInput ∧ (token.rest.ahead.length < cursor.ahead.length →
        Agrees (g token) (f token.value) token.rest bound post)) :
    Agrees (Descent.next cursor >>= g) (Traced.next >>= f) cursor bound post := by
  unfold Descent.next
  split
  · rename_i error rest hnext
    exact Closes.next hnext
  · rename_i token rest hnext
    show Agrees (g ⟨⟨token, rest, TokenSource.left_le hnext⟩, TokenSource.left_lt hnext⟩) _ _ _ _
    obtain ⟨error, hg, hf⟩ | ⟨hkind, hagrees⟩ :=
      h ⟨⟨token, rest, TokenSource.left_le hnext⟩, TokenSource.left_lt hnext⟩ hnext
    · rw [hg]
      exact Closes.next_fail hnext hf
    · exact of_leads (leads_next hnext hkind)
        (hagrees (Cursor.length_ahead_nextToken hnext hkind))

/-- The next token is read if it is of the kind. -/
theorem nextIf {kind : Kind} {f : Option Token → Traced α}
    {g : Taken cursor (Option Token) → Outcome γ} (hkind : kind ≠ .endOfInput)
    (hsome : ∀ token rest hle, rest.ahead.length < cursor.ahead.length →
      Agrees (g ⟨some token, rest, hle⟩) (f (some token)) rest bound post)
    (hnone : Agrees (g ⟨none, cursor, Nat.le_refl _⟩) (f none) cursor bound post) :
    Agrees (Descent.nextIf kind cursor >>= g) (Traced.nextIf kind >>= f) cursor bound post := by
  rw [Traced.nextIf, Descent.nextIf, bind_assoc, bind_assoc]
  refine peek fun seen after hseen => ?_
  dsimp only
  by_cases h : seen.kind = kind
  · rw [if_pos h, if_pos h, bind_assoc, bind_assoc]
    refine next fun token hnext => .inr ⟨?_, hsome token.value token.rest _⟩
    obtain ⟨rfl, -⟩ := TokenSource.next_unique hnext hseen
    rwa [h]
  · rw [if_neg h, if_neg h]
    exact hnone

/-- The next token is read, and is of the kind. -/
theorem expect {kind : Kind} {f : Token → Traced α} {g : Taken cursor Token → Outcome γ}
    (hkind : kind ≠ .endOfInput)
    (h : ∀ token rest hle, rest.ahead.length < cursor.ahead.length →
      Agrees (g ⟨token, rest, hle⟩) (f token) rest bound post) :
    Agrees (Descent.expect kind cursor >>= g) (Traced.expect kind >>= f) cursor bound post := by
  rw [Traced.expect, Descent.expect, bind_assoc, bind_assoc]
  refine next fun token _ => ?_
  by_cases hfound : token.value.kind = kind
  · rw [if_pos hfound, if_pos hfound]
    exact .inr ⟨by rwa [hfound], h token.value token.rest token.left_le⟩
  · rw [if_neg hfound, if_neg hfound]
    exact .inl ⟨_, rfl, rfl⟩

/-- An operand follows an operator. -/
theorem expectOperand {operator : Token} {signed : Bool} {f : Unit → Traced α}
    {g : Taken cursor Unit → Outcome γ}
    (h : Agrees (g ⟨(), cursor, Nat.le_refl _⟩) (f ()) cursor bound post) :
    Agrees (Descent.expectOperand operator signed cursor >>= g)
      (Traced.expectOperand operator signed >>= f) cursor bound post := by
  rw [Traced.expectOperand, Descent.expectOperand, bind_assoc, bind_assoc]
  refine peek fun seen after hseen => ?_
  dsimp only
  split
  · exact h
  · exact Closes.bind Closes.fail

/-- An operator that was looked at is read, and an operand follows it. -/
theorem nextOperator {f : Unit → Traced α} {g : Taken cursor Unit → Outcome γ}
    (hseen : TokenSource.next cursor = (.ok token, middle)) (hkind : token.kind ≠ .endOfInput)
    (h : ∀ hle, middle.ahead.length < cursor.ahead.length →
      Agrees (g ⟨(), middle, hle⟩) (f ()) middle bound post) :
    Agrees (Descent.nextOperator cursor >>= g) (Traced.nextOperator >>= f) cursor bound post := by
  rw [Traced.nextOperator, Descent.nextOperator, bind_assoc, bind_assoc]
  refine next fun operator hnext => ?_
  obtain ⟨rfl, rfl⟩ := TokenSource.next_unique hseen hnext
  rw [bind_assoc]
  exact .inr ⟨hkind, fun hlt => expectOperand (h operator.left_le hlt)⟩

end Agrees

/-! ## Routines -/

variable {context : Context}

/-- Where a tree has been read. Any routine that is below the rank may be come to next. -/
def Ends (rank : Nat) (tree : Expr) (rest : Cursor) (result : Expr) (last : Cursor)
    (least : Nat) : Prop :=
  result = tree ∧ last = rest ∧ 12 * rest.ahead.length + rank ≤ least

/-- **A routine reads what the descent does** where it is come to with enough fuel for its
rank, and it leaves room for any routine below another rank. -/
def Reads (fuel before after : Nat) (cursor : Cursor) (traced : Traced Expr)
    (outcome : Outcome β) (tree : β → Expr) (rest : β → Cursor) : Prop :=
  ∀ bound, bound ≤ fuel → 12 * cursor.ahead.length + before < bound →
    Agrees outcome traced cursor bound fun value => Ends after (tree value) (rest value)

/-- No routine is come to without fuel. -/
theorem Reads.zero {before after : Nat} {traced : Traced Expr} {outcome : Outcome β}
    {tree : β → Expr} {rest : β → Cursor} : Reads 0 before after cursor traced outcome tree rest :=
  fun bound hfuel hlt => by omega

/-- **All routines read what those of the descent do**, with so much fuel. -/
structure Agreement (context : Context) (fuel : Nat) : Prop where
  expression (cursor : Cursor) : Reads fuel 7 9 cursor
    (expression context fuel) (Descent.expression context cursor) Parsed.tree Parsed.rest
  sums {cursor : Cursor} (sum : Parsed cursor) : Reads fuel 9 9 sum.rest
    (sums context sum.tree fuel) (Descent.sums context sum) Parsed.tree Parsed.rest
  term (cursor : Cursor) : Reads fuel 6 10 cursor
    (term context fuel) (Descent.term context cursor) Parsed.tree Parsed.rest
  quotients {cursor : Cursor} (quotient : Parsed cursor) : Reads fuel 10 10 quotient.rest
    (quotients context quotient.tree fuel) (Descent.quotients context quotient)
    Parsed.tree Parsed.rest
  factor (cursor : Cursor) : Reads fuel 5 11 cursor
    (factor context fuel) (Descent.factor context cursor) Parsed.tree Parsed.rest
  product (cursor : Cursor) : Reads fuel 4 11 cursor
    (product context fuel) (Descent.product context cursor) Parsed.tree Parsed.rest
  power (cursor : Cursor) : Reads fuel 3 11 cursor
    (power context fuel) (Descent.power context cursor) Parsed.tree Parsed.rest
  postfixed (cursor : Cursor) : Reads fuel 2 11 cursor
    (postfixed context fuel) (Descent.postfixed context cursor) Parsed.tree Parsed.rest
  primary (cursor : Cursor) : Reads fuel 1 11 cursor
    (primary context fuel) (Descent.primary context cursor) Parsed.tree Parsed.rest
  identifier (token : Token) (cursor : Cursor) : Reads fuel 11 11 cursor
    (identifier context token fuel) (Descent.identifier context token cursor)
    Taken.value Taken.rest
  call (name : Token) (arity : Nat) (cursor : Cursor) : Reads fuel 0 11 cursor
    (call context name arity fuel) (Descent.call context name arity cursor)
    Taken.value Taken.rest
  arguments (name : Token) (arity : Nat) (done : List Expr) (cursor : Cursor) :
    Reads fuel 8 11 cursor (arguments context name arity done fuel)
      (Descent.arguments context name arity done cursor) Taken.value Taken.rest

namespace Agreement

/-- An expression is a term, and the rounds of a loop. -/
theorem expression_succ (h : Agreement context fuel) (cursor : Cursor) :
    Reads (fuel + 1) 7 9 cursor (Traced.expression context (fuel + 1))
      (Descent.expression context cursor) Parsed.tree Parsed.rest := by
  intro bound hfuel hlt
  rw [Traced.expression, Descent.expression]
  refine .enter hlt rfl ((h.term cursor _ (by omega) (by omega)).bind ?_)
  rintro first _ _ least hleast ⟨rfl, rfl, hends⟩
  exact h.sums first _ (by omega) (by omega)

/-- The operators between terms are tokens. -/
theorem kind_ne_of_sumOperation? {kind : Kind} {op : BinaryOp}
    (h : Descent.sumOperation? kind = some op) : kind ≠ .endOfInput := by
  rintro rfl
  cases h

/-- A round of the loop over terms goes over an operator, and over a term. -/
theorem sums_succ (h : Agreement context fuel) {cursor : Cursor} (sum : Parsed cursor) :
    Reads (fuel + 1) 9 9 sum.rest (Traced.sums context sum.tree (fuel + 1))
      (Descent.sums context sum) Parsed.tree Parsed.rest := by
  intro bound hfuel hlt
  rw [Traced.sums, Descent.sums]
  refine .enter hlt rfl (.peek fun seen after hseen => ?_)
  dsimp only
  cases hop : Descent.sumOperation? seen.kind with
  | none => exact .pure ⟨rfl, rfl, Nat.le_refl _⟩
  | some op =>
    refine .nextOperator hseen (kind_ne_of_sumOperation? hop) fun _ hafter => ?_
    refine (h.term after _ (by omega) (by omega)).bind ?_
    rintro right _ _ least hleast ⟨rfl, rfl, hends⟩
    have hround : 12 * right.rest.ahead.length + 9 < least := by omega
    exact h.sums _ _ (by omega) hround

/-- A term is a factor, and the rounds of a loop. -/
theorem term_succ (h : Agreement context fuel) (cursor : Cursor) :
    Reads (fuel + 1) 6 10 cursor (Traced.term context (fuel + 1))
      (Descent.term context cursor) Parsed.tree Parsed.rest := by
  intro bound hfuel hlt
  rw [Traced.term, Descent.term]
  refine .enter hlt rfl ((h.factor cursor _ (by omega) (by omega)).bind ?_)
  rintro first _ _ least hleast ⟨rfl, rfl, hends⟩
  exact h.quotients first _ (by omega) (by omega)

/-- The operators between factors are tokens. -/
theorem kind_ne_of_termOperation? {kind : Kind} {op : BinaryOp}
    (h : Descent.termOperation? kind = some op) : kind ≠ .endOfInput := by
  rintro rfl
  cases h

/-- A round of the loop over factors goes over an operator, and over a factor. -/
theorem quotients_succ (h : Agreement context fuel) {cursor : Cursor} (quotient : Parsed cursor) :
    Reads (fuel + 1) 10 10 quotient.rest (Traced.quotients context quotient.tree (fuel + 1))
      (Descent.quotients context quotient) Parsed.tree Parsed.rest := by
  intro bound hfuel hlt
  rw [Traced.quotients, Descent.quotients]
  refine .enter hlt rfl (.peek fun seen after hseen => ?_)
  dsimp only
  cases hop : Descent.termOperation? seen.kind with
  | none => exact .pure ⟨rfl, rfl, Nat.le_refl _⟩
  | some op =>
    refine .nextOperator hseen (kind_ne_of_termOperation? hop) fun _ hafter => ?_
    refine (h.factor after _ (by omega) (by omega)).bind ?_
    rintro right _ _ least hleast ⟨rfl, rfl, hends⟩
    have hround : 12 * right.rest.ahead.length + 10 < least := by omega
    exact h.quotients _ _ (by omega) hround

/-- A factor is a product, with a sign or without. -/
theorem factor_succ (h : Agreement context fuel) (cursor : Cursor) :
    Reads (fuel + 1) 5 11 cursor (Traced.factor context (fuel + 1))
      (Descent.factor context cursor) Parsed.tree Parsed.rest := by
  intro bound hfuel hlt
  rw [Traced.factor, Descent.factor]
  refine .enter hlt rfl (.nextIf (by decide) (fun minus rest _ hrest => ?_) ?_)
  · refine .expectOperand ((h.product rest _ (by omega) (by omega)).bind ?_)
    rintro operand _ _ least hleast ⟨rfl, rfl, hends⟩
    exact .pure ⟨rfl, rfl, hends⟩
  · exact (h.product cursor _ (by omega) (by omega)).map fun operand _ _ _ hends => hends

/-- A product is a power, and the product of what stands beside it. -/
theorem product_succ (h : Agreement context fuel) (cursor : Cursor) :
    Reads (fuel + 1) 4 11 cursor (Traced.product context (fuel + 1))
      (Descent.product context cursor) Parsed.tree Parsed.rest := by
  intro bound hfuel hlt
  rw [Traced.product, Descent.product]
  refine .enter hlt rfl ((h.power cursor _ (by omega) (by omega)).bind ?_)
  rintro first _ _ least hleast ⟨rfl, rfl, hends⟩
  refine .peek fun seen after hseen => ?_
  dsimp only
  split
  · refine (h.product first.rest _ (by omega) (by omega)).bind ?_
    rintro others _ _ least' hleast' ⟨rfl, rfl, hends'⟩
    exact .pure ⟨rfl, rfl, hends'⟩
  · exact .pure ⟨rfl, rfl, hends⟩

/-- A power is an operand, and the power that it is raised to. -/
theorem power_succ (h : Agreement context fuel) (cursor : Cursor) :
    Reads (fuel + 1) 3 11 cursor (Traced.power context (fuel + 1))
      (Descent.power context cursor) Parsed.tree Parsed.rest := by
  intro bound hfuel hlt
  rw [Traced.power, Descent.power]
  refine .enter hlt rfl ((h.postfixed cursor _ (by omega) (by omega)).bind ?_)
  rintro base _ _ least hleast ⟨rfl, rfl, hends⟩
  refine .nextIf (by decide) (fun caret rest _ hrest => ?_) (.pure ⟨rfl, rfl, hends⟩)
  refine .expectOperand ((h.power rest _ (by omega) (by omega)).bind ?_)
  rintro exponent _ _ least' hleast' ⟨rfl, rfl, hends'⟩
  exact .pure ⟨rfl, rfl, hends'⟩

/-- A sign may follow an operand. -/
theorem postfixed_succ (h : Agreement context fuel) (cursor : Cursor) :
    Reads (fuel + 1) 2 11 cursor (Traced.postfixed context (fuel + 1))
      (Descent.postfixed context cursor) Parsed.tree Parsed.rest := by
  intro bound hfuel hlt
  rw [Traced.postfixed, Descent.postfixed]
  refine .enter hlt rfl ((h.primary cursor _ (by omega) (by omega)).bind ?_)
  rintro operand _ _ least hleast ⟨rfl, rfl, hends⟩
  refine .nextIf (by decide) (fun bang rest _ hrest => ?_) (.pure ⟨rfl, rfl, hends⟩)
  have hends' : 12 * rest.ahead.length + 11 ≤ least := by omega
  exact .pure ⟨rfl, rfl, hends'⟩

/-- An operand is a token, a call, or what a parenthesis holds. -/
theorem primary_succ (h : Agreement context fuel) (cursor : Cursor) :
    Reads (fuel + 1) 1 11 cursor (Traced.primary context (fuel + 1))
      (Descent.primary context cursor) Parsed.tree Parsed.rest := by
  intro bound hfuel hlt
  rw [Traced.primary, Descent.primary]
  refine .enter hlt rfl (.next fun token hnext => ?_)
  split
  · rename_i hkind
    simp only [hkind]
    refine .inr ⟨by decide, fun hrest => .ofOutcome _ fun tree => ⟨rfl, rfl, ?_⟩⟩
    dsimp only
    omega
  · rename_i hkind
    simp only [hkind]
    refine .inr ⟨by decide, fun hrest => ?_⟩
    exact (h.identifier _ token.rest _ (by omega) (by omega)).map fun named _ _ _ hends => hends
  · rename_i hkind
    simp only [hkind]
    refine .inr ⟨by decide, fun hrest => ?_⟩
    refine (h.expression token.rest _ (by omega) (by omega)).bind ?_
    rintro inner _ _ least hleast ⟨rfl, rfl, hends⟩
    refine .expect (by decide) fun closing rest _ hrest' => ?_
    have hends' : 12 * rest.ahead.length + 11 ≤ least := by omega
    exact .pure ⟨rfl, rfl, hends'⟩
  · rename_i hkind
    simp only [hkind]
    exact .inl ⟨_, rfl, rfl⟩
  · exact .inl ⟨_, rfl, by simp⟩

/-- A name stands for a variable, or for a function that is called. -/
theorem identifier_succ (h : Agreement context fuel) (token : Token) (cursor : Cursor) :
    Reads (fuel + 1) 11 11 cursor (Traced.identifier context token (fuel + 1))
      (Descent.identifier context token cursor) Taken.value Taken.rest := by
  intro bound hfuel hlt
  rw [Traced.identifier, Descent.identifier]
  refine .enter hlt rfl ?_
  cases context.lookup token.text with
  | none => exact Closes.fail
  | some meaning =>
    cases meaning with
    | var value => exact .pure ⟨rfl, rfl, Nat.le_refl _⟩
    | fn operation => exact h.call _ _ _ _ (by omega) (by omega)

/-- A call is a parenthesis, and the rounds of a loop unless it is closed at once. -/
theorem call_succ (h : Agreement context fuel) (name : Token) (arity : Nat) (cursor : Cursor) :
    Reads (fuel + 1) 0 11 cursor (Traced.call context name arity (fuel + 1))
      (Descent.call context name arity cursor) Taken.value Taken.rest := by
  intro bound hfuel hlt
  rw [Traced.call, Descent.call]
  refine .enter hlt rfl (.expect (by decide) fun opening rest _ hrest => ?_)
  dsimp only
  refine .nextIf (by decide) (fun last rest' _ hrest' => ?_) ?_
  · have hends : 12 * rest'.ahead.length + 11 ≤ 12 * cursor.ahead.length + 0 := by omega
    exact .ofOutcome _ fun tree => ⟨rfl, rfl, hends⟩
  · exact (h.arguments _ _ _ rest _ (by omega) (by omega)).map fun called _ _ _ hends => hends

/-- A round of the loop over arguments goes over one, and over what is behind it. -/
theorem arguments_succ (h : Agreement context fuel) (name : Token) (arity : Nat)
    (done : List Expr) (cursor : Cursor) :
    Reads (fuel + 1) 8 11 cursor (Traced.arguments context name arity done (fuel + 1))
      (Descent.arguments context name arity done cursor) Taken.value Taken.rest := by
  intro bound hfuel hlt
  rw [Traced.arguments, Descent.arguments]
  refine .enter hlt rfl ((h.expression cursor _ (by omega) (by omega)).bind ?_)
  rintro argument _ _ least hleast ⟨rfl, rfl, hends⟩
  refine .next fun token hnext => ?_
  split
  · rename_i hkind
    simp only [hkind]
    refine .inr ⟨by decide, fun hrest => ?_⟩
    exact (h.arguments _ _ _ token.rest _ (by omega) (by omega)).map
      fun called _ _ _ hends => hends
  · rename_i hkind
    simp only [hkind]
    refine .inr ⟨by decide, fun hrest => .ofOutcome _ fun tree => ⟨rfl, rfl, ?_⟩⟩
    dsimp only
    omega
  · exact .inl ⟨_, rfl, by simp⟩

end Agreement

/-- **With any fuel all routines read what those of the descent do.** -/
theorem agreement (context : Context) (fuel : Nat) : Agreement context fuel := by
  induction fuel with
  | zero =>
    exact ⟨fun _ => .zero, fun _ => .zero, fun _ => .zero, fun _ => .zero, fun _ => .zero,
      fun _ => .zero, fun _ => .zero, fun _ => .zero, fun _ => .zero, fun _ _ => .zero,
      fun _ _ _ => .zero, fun _ _ _ _ => .zero⟩
  | succ fuel ih =>
    exact
      { expression := ih.expression_succ
        sums := ih.sums_succ
        term := ih.term_succ
        quotients := ih.quotients_succ
        factor := ih.factor_succ
        product := ih.product_succ
        power := ih.power_succ
        postfixed := ih.postfixed_succ
        primary := ih.primary_succ
        identifier := ih.identifier_succ
        call := ih.call_succ
        arguments := ih.arguments_succ }

/-! ## Whole sources -/

/-- **An expression is parsed as the descent parses it**, and its log is closed. -/
theorem closes_whole (hfuel : bound ≤ fuel) (hlt : 12 * cursor.ahead.length + 7 < bound) :
    Closes (whole context fuel) cursor bound (Descent.whole context cursor) := by
  rw [whole, Descent.whole]
  refine ((agreement context fuel).expression cursor bound hfuel hlt).closes ?_
  rintro parsed _ _ least ⟨rfl, rfl, -⟩
  unfold Descent.next
  split
  · rename_i error rest hnext
    exact Closes.next hnext
  · rename_i token rest hnext
    by_cases hkind : token.kind = .endOfInput
    · refine Closes.next_end hnext hkind fun log => ?_
      rw [if_pos hkind]
      show _ = (Except.mapError Halt.failed (if token.kind = .endOfInput then _ else _), _)
      rw [if_pos hkind]
      rfl
    · show Closes _ _ _ (if token.kind = .endOfInput then _ else _)
      rw [if_neg hkind]
      refine Closes.next_fail hnext ?_
      rw [if_neg hkind]

/-- **Tokens are read as the stream has them**, with fuel for one more than the
characters ahead. -/
theorem closes_tokens {before : List Token} (hfuel : cursor.ahead.length < fuel) :
    Closes (tokens before fuel) cursor bound
      (((TokenStream.ofCursor cursor).toExcept.map (before ++ ·)).mapError (·.map .lexical)) := by
  induction fuel generalizing cursor before with
  | zero => omega
  | succ fuel ih =>
    rw [tokens]
    cases hnext : cursor.nextToken with
    | mk reading after =>
    cases reading with
    | error error =>
      rw [TokenStream.ofCursor_of_error hnext]
      exact Closes.next hnext
    | ok token =>
      by_cases hkind : token.kind = .endOfInput
      · rw [TokenStream.ofCursor_of_end hnext hkind]
        refine Closes.next_end hnext hkind fun log => ?_
        rw [if_pos hkind]
        rfl
      · have hless := Cursor.length_ahead_nextToken hnext hkind
        refine .of_leads (leads_next hnext hkind) ?_
        rw [if_neg hkind, TokenStream.ofCursor_of_token hnext hkind]
        have hrest : Closes (tokens (before ++ [token]) fuel) after bound _ := ih (by omega)
        unfold TokenStream.toExcept at hrest ⊢
        cases hending : (TokenStream.ofCursor after).ending with
        | error error =>
          rw [hending] at hrest
          exact hrest
        | ok last =>
          rw [hending] at hrest
          simpa [Except.map] using hrest

/-- **A run over a source comes to an outcome**, and makes headway. -/
def Completes (traced : Traced α) (source : String) (outcome : Outcome α) : Prop :=
  ∃ last log, traced ⟨.ofString source, []⟩ = (outcome.mapError .failed, ⟨last, log⟩) ∧
    Headway source log last outcome

/-- A run that closes its log makes headway. -/
theorem Closes.completes {source : String} {outcome : Outcome α}
    (h : Closes traced (.ofString source) (12 * (source.length + 1)) outcome) :
    traced.Completes source outcome := by
  obtain ⟨last, log, hclosed, hrun⟩ := h
  exact ⟨last, log, hrun [], hclosed.headway⟩

end Traced

/-- **Reading ends with all sources, and never runs out of fuel.** With fuel for a read
of each character and one more, or any more fuel than that, the tokens of a source are
those of its stream. With twelve times as much, or more, the routines parse it in any
context as the machine does. No more is read either way, and the logs make headway: each
token takes the cursor further and nothing takes it back, whatever is looked at; a loop
goes round and a routine is come to again only behind a token; and what is no token is
the last thing that is met. -/
theorem reading_never_runs_out (context : Context) (source : String) (extra : Nat) :
    (Traced.tokens [] (source.length + 1 + extra)).Completes source
        ((tokenize source).mapError (·.map .lexical)) ∧
      (Traced.whole context (12 * (source.length + 1) + extra)).Completes source
        (parse context source) := by
  have hahead : (Cursor.ofString source).ahead.length = source.length := String.length_toList
  refine ⟨?_, ?_⟩
  · have hclosed : Traced.Closes (Traced.tokens [] (source.length + 1 + extra)) (.ofString source)
        (12 * (source.length + 1)) _ := Traced.closes_tokens (by omega)
    have htokens : (TokenStream.ofCursor (.ofString source)).toExcept.map ([] ++ ·) =
        tokenize source := by
      rw [tokenize, TokenStream.ofString]
      cases (TokenStream.ofCursor (.ofString source)).toExcept <;> rfl
    rw [htokens] at hclosed
    exact hclosed.completes
  · have hclosed : Traced.Closes (Traced.whole context (12 * (source.length + 1) + extra))
        (.ofString source) (12 * (source.length + 1)) _ := Traced.closes_whole (by omega) (by omega)
    rw [Machine.whole_eq_pull, Machine.pull_cursor] at hclosed
    exact hclosed.completes

/-- One read for each character is not enough. -/
example : (Traced.tokens [] 1 ⟨.ofString "1", []⟩).1 = .error .outOfFuel := by
  cbv

end Calculator
