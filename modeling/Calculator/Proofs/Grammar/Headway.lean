import Calculator.Proofs.Grammar.Trace
import Calculator.Proofs.Token.Tiling
/-!
# Logs that make headway

A run may go on only so long. The weight of a routine is how much is ahead of it, and
then its rank, and along a log the weights of the routines that are come to go down
(`Leg`). So a routine that is no lower than one before it has had a token read since
(`Leg.consumes_or_weight_lt`), of which there are no more than characters. Behind what no
run goes on from, which is the end of the input or something that is no token, a log is
closed (`Closed`). Every closed log makes headway (`Closed.headway`).
-/

namespace Calculator

open Descent (Outcome)

variable {α β : Type} {source : String} {cursor last : Cursor} {bound least : Nat}
variable {events log : List Event} {event : Event} {outcome : Outcome α}

/-! ## Events -/

namespace Event

/-- The routine that is come to. -/
def routine? (event : Event) : Option Routine :=
  match event.act with
  | .enter routine => some routine
  | _ => none

/-- What is looked at or read. -/
def reading? (event : Event) : Option Reading :=
  match event.act with
  | .enter _ => none
  | .look reading | .read reading => some reading

/-- Something is read, be it a token or not. -/
def isRead (event : Event) : Bool :=
  match event.act with
  | .read _ => true
  | _ => false

/-- A token is read that is not the end of the input. -/
def Consumes (event : Event) : Prop :=
  ∃ token, event.act = .read (.ok token) ∧ token.kind ≠ .endOfInput

/-- **Only a read moves the cursor**, and what is looked at or read is the next token. -/
def Moves (event : Event) : Prop :=
  match event.act with
  | .enter _ => event.after = event.before
  | .look reading => reading = event.before.nextToken.1 ∧ event.after = event.before
  | .read reading => event.before.nextToken = (reading, event.after)

end Event

/-- **Each event begins where the one before it ended**, from one cursor to another. -/
def Joined (cursor : Cursor) : List Event → Cursor → Prop
  | [], last => last = cursor
  | event :: events, last => event.before = cursor ∧ Joined event.after events last

/-- **A log makes headway** through a source, from its start to where it ends, and
something comes of it. -/
structure Headway (source : String) (log : List Event) (last : Cursor) (outcome : Outcome α) :
    Prop where
  joined : Joined (.ofString source) log last
  moves : ∀ event ∈ log, event.Moves
  /-- Every token but the end of the input takes the cursor further. -/
  advances : ∀ event ∈ log, event.Consumes → event.before.pos < event.after.pos
  /-- Nothing takes it back to before where it was. -/
  never_back : log.Pairwise fun event later => event.after.pos ≤ later.before.pos
  /-- A routine is come to again, or one that is no lower, behind a token. -/
  renewed : ∀ (i j : Nat) (routine later : Routine), i < j →
    log[i]?.bind Event.routine? = some routine → log[j]?.bind Event.routine? = some later →
    routine.rank ≤ later.rank →
    ∃ k, ∃ event : Event, i < k ∧ k < j ∧ log[k]? = some event ∧ event.Consumes
  reads_le : log.countP Event.isRead ≤ source.length + 1
  entries_le : log.countP (·.routine?.isSome) ≤ 12 * (source.length + 1)
  /-- What is no token ends the log, and is what comes of it. -/
  error_last : ∀ (i : Nat) (event : Event) (error : Located LexError), log[i]? = some event →
    event.reading? = some (.error error) →
    log.length = i + 1 ∧ outcome = .error (error.map .lexical)

/-! ## Where events lead -/

/-- One log behind another leads on. -/
theorem Joined.append {middle : Cursor} {later : List Event} (h : Joined cursor events middle)
    (hlater : Joined middle later last) : Joined cursor (events ++ later) last := by
  induction events generalizing cursor with
  | nil =>
    obtain rfl : middle = cursor := h
    exact hlater
  | cons event events ih => exact ⟨h.1, ih h.2⟩

/-- **A cursor that no event takes back is never taken back.** -/
theorem Joined.pairwise (h : Joined cursor events last)
    (hle : ∀ event ∈ events, event.before.pos ≤ event.after.pos) :
    events.Pairwise (fun event later => event.after.pos ≤ later.before.pos) ∧
      ∀ event ∈ events, cursor.pos ≤ event.before.pos := by
  induction events generalizing cursor with
  | nil => exact ⟨.nil, List.forall_mem_nil _⟩
  | cons event events ih =>
    obtain ⟨rfl, hevents⟩ := h
    obtain ⟨hevent, hrest⟩ := List.forall_mem_cons.1 hle
    obtain ⟨hpairwise, hbehind⟩ := ih hevents hrest
    refine ⟨List.pairwise_cons.2 ⟨hbehind, hpairwise⟩, ?_⟩
    refine List.forall_mem_cons.2 ⟨Nat.le_refl _, fun later hlater => ?_⟩
    exact Nat.le_trans hevent (hbehind later hlater)

namespace Event.Moves

variable {source : List Char}

/-- No event leaves the source. -/
theorem in_after (h : event.Moves) (hin : event.before.place.In source) :
    event.after.place.In source := by
  obtain ⟨act, before, after⟩ := event
  cases act with
  | enter routine =>
    obtain rfl : after = before := h
    exact hin
  | look reading =>
    obtain ⟨-, rfl⟩ : reading = before.nextToken.1 ∧ after = before := h
    exact hin
  | read reading =>
    have hnext : before.nextToken = (reading, after) := h
    have hafter := Cursor.in_nextToken hin
    rwa [hnext] at hafter

/-- Nor does it take a cursor back. -/
theorem pos_le (h : event.Moves) (hin : event.before.place.In source) :
    event.before.pos ≤ event.after.pos := by
  have hbefore := hin.pos_add_length
  have hafter := (h.in_after hin).pos_add_length
  obtain ⟨act, before, after⟩ := event
  cases act with
  | enter routine =>
    obtain rfl : after = before := h
    exact Nat.le_refl _
  | look reading =>
    obtain ⟨-, rfl⟩ : reading = before.nextToken.1 ∧ after = before := h
    exact Nat.le_refl _
  | read reading =>
    have hnext : before.nextToken = (reading, after) := h
    have hle := before.length_ahead_nextToken_le
    rw [hnext] at hle
    simp only [Cursor.pos, Cursor.ahead] at *
    omega

/-- **A token takes it further.** -/
theorem pos_lt (h : event.Moves) (hin : event.before.place.In source)
    (hconsumes : event.Consumes) : event.before.pos < event.after.pos := by
  have hbefore := hin.pos_add_length
  have hafter := (h.in_after hin).pos_add_length
  obtain ⟨act, before, after⟩ := event
  obtain ⟨token, rfl, hkind⟩ := hconsumes
  have hlt := Cursor.length_ahead_nextToken h hkind
  simp only [Cursor.pos, Cursor.ahead] at *
  omega

end Event.Moves

/-- A log that leads on from a source leaves it nowhere. -/
theorem Joined.in_before {source : List Char} (h : Joined cursor events last)
    (hmoves : ∀ event ∈ events, event.Moves) (hin : cursor.place.In source) :
    ∀ event ∈ events, event.before.place.In source := by
  induction events generalizing cursor with
  | nil => exact List.forall_mem_nil _
  | cons event events ih =>
    obtain ⟨rfl, hevents⟩ := h
    obtain ⟨hevent, hrest⟩ := List.forall_mem_cons.1 hmoves
    exact List.forall_mem_cons.2 ⟨hin, ih hevents hrest (hevent.in_after hin)⟩

/-! ## Weights -/

/-- The weight of a routine where it is come to. -/
def Routine.weight (routine : Routine) (cursor : Cursor) : Nat :=
  12 * cursor.ahead.length + routine.rank

/-- **A stretch of a log, along which the weights of the routines go down.** It leads
from one cursor to another, and from one weight that no routine behind it has to
another. Tokens only are looked at, and none that is read is the end of the input. -/
inductive Leg : Cursor → Nat → List Event → Cursor → Nat → Prop
  | done {cursor : Cursor} {bound : Nat} : Leg cursor bound [] cursor bound
  | enter {cursor last : Cursor} {bound least : Nat} {events : List Event} {routine : Routine} :
      routine.weight cursor < bound → Leg cursor (routine.weight cursor) events last least →
      Leg cursor bound (⟨.enter routine, cursor, cursor⟩ :: events) last least
  | look {cursor after last : Cursor} {bound least : Nat} {events : List Event} {token : Token} :
      cursor.nextToken = (.ok token, after) → Leg cursor bound events last least →
      Leg cursor bound (⟨.look (.ok token), cursor, cursor⟩ :: events) last least
  | read {cursor after last : Cursor} {bound least : Nat} {events : List Event} {token : Token} :
      cursor.nextToken = (.ok token, after) → token.kind ≠ .endOfInput →
      Leg after bound events last least →
      Leg cursor bound (⟨.read (.ok token), cursor, after⟩ :: events) last least

namespace Leg

/-- One stretch behind another. -/
theorem trans {middle : Cursor} {lower : Nat} {later : List Event}
    (h : Leg cursor bound events middle lower) (hlater : Leg middle lower later last least) :
    Leg cursor bound (events ++ later) last least := by
  induction h with
  | done => exact hlater
  | enter hweight _ ih => exact .enter hweight (ih hlater)
  | look hnext _ ih => exact .look hnext (ih hlater)
  | read hnext hkind _ ih => exact .read hnext hkind (ih hlater)

theorem joined (h : Leg cursor bound events last least) : Joined cursor events last := by
  induction h with
  | done => rfl
  | enter _ _ ih => exact ⟨rfl, ih⟩
  | look _ _ ih => exact ⟨rfl, ih⟩
  | read _ _ _ ih => exact ⟨rfl, ih⟩

theorem moves (h : Leg cursor bound events last least) : ∀ event ∈ events, event.Moves := by
  induction h with
  | done => exact List.forall_mem_nil _
  | enter _ _ ih => exact List.forall_mem_cons.2 ⟨rfl, ih⟩
  | look hnext _ ih => exact List.forall_mem_cons.2 ⟨⟨congrArg Prod.fst hnext.symm, rfl⟩, ih⟩
  | read hnext _ _ ih => exact List.forall_mem_cons.2 ⟨hnext, ih⟩

/-- **Each routine takes from the bound**, so there are no more of them. -/
theorem entries_le (h : Leg cursor bound events last least) :
    events.countP (·.routine?.isSome) + least ≤ bound := by
  induction h with
  | done => simp
  | enter hweight _ ih =>
    rw [List.countP_cons_of_pos rfl]
    omega
  | look _ _ ih => rwa [List.countP_cons_of_neg (by simp [Event.routine?])]
  | read _ _ _ ih => rwa [List.countP_cons_of_neg (by simp [Event.routine?])]

/-- **Each token takes from what is ahead.** -/
theorem reads_le (h : Leg cursor bound events last least) :
    events.countP Event.isRead + last.ahead.length ≤ cursor.ahead.length := by
  induction h with
  | done => simp
  | enter _ _ ih => rwa [List.countP_cons_of_neg (by simp [Event.isRead])]
  | look _ _ ih => rwa [List.countP_cons_of_neg (by simp [Event.isRead])]
  | read hnext hkind _ ih =>
    have hlt := Cursor.length_ahead_nextToken hnext hkind
    rw [List.countP_cons_of_pos rfl]
    omega

/-- What is looked at or read is a token. -/
theorem reading_ok (h : Leg cursor bound events last least) :
    ∀ event ∈ events, ∀ error, event.reading? ≠ some (.error error) := by
  induction h with
  | done => exact List.forall_mem_nil _
  | enter _ _ ih => exact List.forall_mem_cons.2 ⟨by simp [Event.reading?], ih⟩
  | look _ _ ih => exact List.forall_mem_cons.2 ⟨by simp [Event.reading?], ih⟩
  | read _ _ _ ih => exact List.forall_mem_cons.2 ⟨by simp [Event.reading?], ih⟩

/-- **A routine is lighter than the bound, or a token was read before it.** -/
theorem consumes_or_weight_lt (h : Leg cursor bound events last least) {j : Nat}
    {routine : Routine} (hj : events[j]?.bind Event.routine? = some routine) :
    (∃ k event, k < j ∧ events[k]? = some event ∧ event.Consumes) ∨
      routine.weight cursor < bound := by
  induction h generalizing j with
  | done => simp at hj
  | enter hweight _ ih =>
    cases j with
    | zero =>
      obtain rfl : _ = routine := by simpa [Event.routine?] using hj
      exact .inr hweight
    | succ j =>
      obtain ⟨k, event, hk, hevent, hconsumes⟩ | hlt := ih (by simpa using hj)
      · exact .inl ⟨k + 1, event, by omega, by simpa using hevent, hconsumes⟩
      · exact .inr (by omega)
  | look _ _ ih =>
    cases j with
    | zero => simp [Event.routine?] at hj
    | succ j =>
      obtain ⟨k, event, hk, hevent, hconsumes⟩ | hlt := ih (by simpa using hj)
      · exact .inl ⟨k + 1, event, by omega, by simpa using hevent, hconsumes⟩
      · exact .inr hlt
  | read _ hkind _ _ =>
    cases j with
    | zero => simp [Event.routine?] at hj
    | succ j => exact .inl ⟨0, _, by omega, rfl, _, rfl, hkind⟩

/-- **So a routine that is no lower than one before it stands behind a token.** -/
theorem renewed (h : Leg cursor bound events last least) {i j : Nat} {routine later : Routine}
    (hij : i < j) (hi : events[i]?.bind Event.routine? = some routine)
    (hj : events[j]?.bind Event.routine? = some later) (hrank : routine.rank ≤ later.rank) :
    ∃ k event, i < k ∧ k < j ∧ events[k]? = some event ∧ event.Consumes := by
  induction h generalizing i j with
  | done => simp at hi
  | enter hweight hrest ih =>
    obtain _ | j := j
    · omega
    rw [List.getElem?_cons_succ] at hj
    cases i with
    | zero =>
      obtain rfl : _ = routine := by simpa [Event.routine?] using hi
      obtain ⟨k, event, hk, hevent, hconsumes⟩ | hlt :=
        hrest.consumes_or_weight_lt hj
      · exact ⟨k + 1, event, by omega, by omega, by simpa using hevent, hconsumes⟩
      · rw [Routine.weight, Routine.weight] at hlt
        omega
    | succ i =>
      rw [List.getElem?_cons_succ] at hi
      obtain ⟨k, event, hik, hkj, hevent, hconsumes⟩ := ih (by omega) hi hj
      exact ⟨k + 1, event, by omega, by omega, by simpa using hevent, hconsumes⟩
  | look _ _ ih | read _ _ _ ih =>
    obtain _ | j := j
    · omega
    rw [List.getElem?_cons_succ] at hj
    cases i with
    | zero => simp [Event.routine?] at hi
    | succ i =>
      rw [List.getElem?_cons_succ] at hi
      obtain ⟨k, event, hik, hkj, hevent, hconsumes⟩ := ih (by omega) hi hj
      exact ⟨k + 1, event, by omega, by omega, by simpa using hevent, hconsumes⟩

end Leg

/-! ## Closed logs -/

/-- **What no run goes on from**: the end of the input, once it is read, or something
that is no token. -/
inductive Closing (outcome : Outcome α) : Event → Prop
  | atEnd {before after : Cursor} {token : Token} : before.nextToken = (.ok token, after) →
      token.kind = .endOfInput → Closing outcome ⟨.read (.ok token), before, after⟩
  | look {before after : Cursor} {error : Located LexError} :
      before.nextToken = (.error error, after) → outcome = .error (error.map .lexical) →
      Closing outcome ⟨.look (.error error), before, before⟩
  | read {before after : Cursor} {error : Located LexError} :
      before.nextToken = (.error error, after) → outcome = .error (error.map .lexical) →
      Closing outcome ⟨.read (.error error), before, after⟩

/-- **A log that is closed**: by an error of its own, or by what no run goes on from. -/
inductive Closed (cursor : Cursor) (bound : Nat) : List Event → Cursor → Outcome α → Prop
  | failed {events : List Event} {last : Cursor} {least : Nat} {error : Located SyntaxError} :
      Leg cursor bound events last least → Closed cursor bound events last (.error error)
  | closing {events : List Event} {event : Event} {least : Nat} {outcome : Outcome α} :
      Leg cursor bound events event.before least → Closing outcome event →
      Closed cursor bound (events ++ [event]) event.after outcome

namespace Closing

theorem moves (h : Closing outcome event) : event.Moves := by
  cases h with
  | atEnd hnext _ => exact hnext
  | look hnext _ => exact ⟨congrArg Prod.fst hnext.symm, rfl⟩
  | read hnext _ => exact hnext

/-- It is no routine. -/
theorem routine?_eq (h : Closing outcome event) : event.routine? = none := by
  cases h <;> rfl

/-- If it is no token it is what comes of the log. -/
theorem outcome_eq (h : Closing outcome event) {error : Located LexError}
    (herror : event.reading? = some (.error error)) : outcome = .error (error.map .lexical) := by
  cases h with
  | atEnd => simp [Event.reading?] at herror
  | look _ houtcome | read _ houtcome =>
    cases herror
    exact houtcome

end Closing

namespace Closed

/-- A stretch before a closed log. -/
theorem of_leg {middle : Cursor} {lower : Nat} (hleg : Leg cursor bound events middle lower)
    (h : Closed middle lower log last outcome) :
    Closed cursor bound (events ++ log) last outcome := by
  cases h with
  | failed hlog => exact .failed (hleg.trans hlog)
  | closing hlog hclosing =>
    rw [← List.append_assoc]
    exact .closing (hleg.trans hlog) hclosing

/-- A log that an error closes is closed whatever was to come. -/
theorem of_error {error : Located SyntaxError}
    (h : Closed cursor bound log last (.error error : Outcome α)) :
    Closed cursor bound log last (.error error : Outcome β) := by
  generalize hfailed : (.error error : Outcome α) = failed at h
  cases h with
  | failed hleg =>
    cases hfailed
    exact .failed hleg
  | closing hleg hclosing =>
    refine .closing hleg ?_
    cases hclosing with
    | atEnd hnext hkind => exact .atEnd hnext hkind
    | look hnext houtcome =>
      cases hfailed.trans houtcome
      exact .look hnext rfl
    | read hnext houtcome =>
      cases hfailed.trans houtcome
      exact .read hnext rfl

theorem joined (h : Closed cursor bound log last outcome) : Joined cursor log last := by
  cases h with
  | failed hleg => exact hleg.joined
  | closing hleg _ => exact hleg.joined.append ⟨rfl, rfl⟩

theorem moves (h : Closed cursor bound log last outcome) : ∀ event ∈ log, event.Moves := by
  cases h with
  | failed hleg => exact hleg.moves
  | closing hleg hclosing =>
    exact List.forall_mem_append.2 ⟨hleg.moves, List.forall_mem_singleton.2 hclosing.moves⟩

/-- There are no more routines than the bound allows. -/
theorem entries_le (h : Closed cursor bound log last outcome) :
    log.countP (·.routine?.isSome) ≤ bound := by
  cases h with
  | failed hleg => exact Nat.le_of_add_right_le hleg.entries_le
  | closing hleg hclosing =>
    rw [List.countP_append, List.countP_singleton, hclosing.routine?_eq]
    exact Nat.le_of_add_right_le hleg.entries_le

/-- There is at most one more read than characters are ahead. -/
theorem reads_le (h : Closed cursor bound log last outcome) :
    log.countP Event.isRead ≤ cursor.ahead.length + 1 := by
  cases h with
  | failed hleg =>
    have hreads := hleg.reads_le
    omega
  | @closing _ event _ _ hleg _ =>
    have hreads := hleg.reads_le
    have hlast : [event].countP Event.isRead ≤ 1 := List.countP_le_length
    rw [List.countP_append]
    omega

/-- A routine that is no lower than one before it stands behind a token. -/
theorem renewed (h : Closed cursor bound log last outcome) {i j : Nat} {routine later : Routine}
    (hij : i < j) (hi : log[i]?.bind Event.routine? = some routine)
    (hj : log[j]?.bind Event.routine? = some later) (hrank : routine.rank ≤ later.rank) :
    ∃ k, ∃ event : Event, i < k ∧ k < j ∧ log[k]? = some event ∧ event.Consumes := by
  cases h with
  | failed hleg => exact hleg.renewed hij hi hj hrank
  | @closing events event _ _ hleg hclosing =>
    have hlength : j < events.length := by
      by_contra hge
      rw [List.getElem?_append_right (by omega)] at hj
      obtain ⟨other, hother, hroutine⟩ := Option.bind_eq_some_iff.1 hj
      obtain rfl := List.mem_singleton.1 (List.mem_of_getElem? hother)
      cases hclosing.routine?_eq.symm.trans hroutine
    rw [List.getElem?_append_left (by omega)] at hi hj
    obtain ⟨k, event, hik, hkj, hevent, hconsumes⟩ := hleg.renewed hij hi hj hrank
    refine ⟨k, event, hik, hkj, ?_, hconsumes⟩
    rwa [List.getElem?_append_left (by omega)]

/-- What is no token is last, and is what comes of the log. -/
theorem error_last (h : Closed cursor bound log last outcome) {i : Nat} {error : Located LexError}
    (hi : log[i]? = some event) (herror : event.reading? = some (.error error)) :
    log.length = i + 1 ∧ outcome = .error (error.map .lexical) := by
  cases h with
  | failed hleg => exact absurd herror (hleg.reading_ok event (List.mem_of_getElem? hi) error)
  | @closing events closing _ _ hleg hclosing =>
    rcases Nat.lt_trichotomy i events.length with hlt | rfl | hgt
    · rw [List.getElem?_append_left hlt] at hi
      exact absurd herror (hleg.reading_ok event (List.mem_of_getElem? hi) error)
    · obtain rfl : closing = event := by simpa using hi
      exact ⟨by simp, hclosing.outcome_eq herror⟩
    · rw [List.getElem?_eq_none (by simp; omega)] at hi
      cases hi

/-- **Every log that is closed makes headway.** -/
theorem headway (h : Closed (.ofString source) (12 * (source.length + 1)) log last outcome) :
    Headway source log last outcome := by
  have hin := Cursor.in_ofString source
  have hbefore := h.joined.in_before h.moves hin
  have hreads := h.reads_le
  refine
    { joined := h.joined
      moves := h.moves
      advances := fun event hevent => (h.moves event hevent).pos_lt (hbefore event hevent)
      never_back := ?_
      renewed := fun i j routine later => h.renewed
      reads_le := ?_
      entries_le := h.entries_le
      error_last := fun i event error => h.error_last }
  · exact (h.joined.pairwise fun event hevent =>
      (h.moves event hevent).pos_le (hbefore event hevent)).1
  · rwa [← String.length_toList]

end Closed

end Calculator
