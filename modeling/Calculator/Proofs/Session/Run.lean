import Calculator.Proofs.Session.Listing
/-!
# Sessions line by line

A session goes from table to table. The lines before a point of it have left a
table there (`Session.tableAfter`), and from that alone the session goes on as if it
began there (`Session.run_append`). A line changes the table only if it assigns and
succeeds (`Session.step_cases`), so the table at a point is what the successful
assignments before it make (`Session.grants_assigned`).
-/

namespace Calculator

variable {table after : SymbolTable} {line : String} {lines later shown : List String}

/-- The pieces come before the rest. -/
def Transcript.prependAll (pieces : List String) (transcript : Transcript) : Transcript :=
  { transcript with pieces := pieces ++ transcript.pieces }

/-- An assignment succeeds if its expression has a value and the name may have it. -/
theorem SymbolTable.assign_eq_ok_iff {name expression : String} {value : Float} :
    table.assign name expression = .ok (value, after) ↔
      table.evaluate expression = .ok value ∧ table.bind name value = .ok after := by
  unfold assign
  cases table.evaluate expression with
  | error error => simp [Except.bind]
  | ok value' =>
    show ((table.bind name value').mapError Error.symbol).map (fun table => (value', table)) = _ ↔ _
    cases hbind : table.bind name value' with
    | error error =>
      simp only [Except.mapError, Except.map, reduceCtorEq, false_iff, not_and]
      rintro ⟨⟩
      simp [hbind]
    | ok after' =>
      simp only [Except.mapError, Except.map, Except.ok.injEq, Prod.mk.injEq]
      constructor
      · rintro ⟨rfl, rfl⟩
        exact ⟨rfl, hbind⟩
      · rintro ⟨rfl, h⟩
        rw [hbind] at h
        exact ⟨rfl, Except.ok.inj h⟩

namespace Session

/-- **The table after some lines**, unless one of them leaves the session. -/
def tableAfter (table : SymbolTable) : List String → Option SymbolTable
  | [] => some table
  | line :: rest =>
    match step table line with
    | .leave => none
    | .answer _ after => tableAfter after rest

/-- The name that a line assigns to and the value it gets, if that succeeds. -/
def assignment? (table : SymbolTable) (line : String) : Option (String × Float) :=
  match Command.ofLine? line with
  | some (.assign name expression) =>
    (table.assign name expression).toOption.map fun (value, _) => (name, value)
  | _ => none

/-- **The successful assignments of some lines**, in their order. -/
def assigned (table : SymbolTable) : List String → List (String × Float)
  | [] => []
  | line :: rest =>
    match step table line with
    | .leave => []
    | .answer _ after => (assignment? table line).toList ++ assigned after rest

/-- **What a line can do to the table**: nothing, or bind the variable it assigns to. -/
theorem step_cases (h : step table line = .answer shown after) :
    (assignment? table line = none ∧ after = table) ∨ ∃ name value,
      assignment? table line = some (name, value) ∧ table.bind name value = .ok after := by
  unfold step respond at h
  unfold assignment?
  cases hcommand : Command.ofLine? line with
  | none =>
    rw [hcommand] at h
    cases h
    exact .inl ⟨rfl, rfl⟩
  | some command =>
    rw [hcommand] at h
    cases command with
    | nothing | listVariables =>
      cases h
      exact .inl ⟨rfl, rfl⟩
    | leave => cases h
    | evaluate source =>
      dsimp only at h
      split at h
      · cases h
        exact .inl ⟨rfl, rfl⟩
      · cases h
        exact .inl ⟨rfl, rfl⟩
    | assign name expression =>
      dsimp only at h ⊢
      split at h
      · rename_i value after' hassign
        cases h
        obtain ⟨-, hbind⟩ := SymbolTable.assign_eq_ok_iff.1 hassign
        rw [hassign]
        exact .inr ⟨name, value, rfl, hbind⟩
      · rename_i error hassign
        cases h
        rw [hassign]
        exact .inl ⟨rfl, rfl⟩

/-- The session goes on after a line that is answered. -/
theorem tableAfter_cons (h : tableAfter table (line :: lines) = some after) :
    ∃ shown next, step table line = .answer shown next ∧ tableAfter next lines = some after ∧
      assigned table (line :: lines) = (assignment? table line).toList ++ assigned next lines := by
  rw [tableAfter] at h
  rw [assigned]
  cases hstep : step table line with
  | leave =>
    rw [hstep] at h
    cases h
  | answer shown next =>
    rw [hstep] at h
    exact ⟨shown, next, rfl, h, rfl⟩

/-- After one line the table is the one it leaves. -/
theorem tableAfter_singleton (h : step table line = .answer shown after) :
    tableAfter table [line] = some after := by
  rw [tableAfter, h]
  rfl

/-- **The table at a point is made by the assignments before it that succeeded.** -/
theorem grants_assigned (h : tableAfter table lines = some after) :
    table.Grants ((assigned table lines).map .ofBinding) after := by
  induction lines generalizing table with
  | nil =>
    cases h
    exact .nil
  | cons line lines ih =>
    obtain ⟨shown, next, hstep, hrest, hassigned⟩ := tableAfter_cons h
    rw [hassigned, List.map_append]
    refine SymbolTable.Grants.append ?_ (ih hrest)
    rcases step_cases hstep with ⟨hnone, rfl⟩ | ⟨name, value, hsome, hbind⟩
    · rw [hnone]
      exact .nil
    · rw [hsome]
      exact .cons hbind .nil

/-- **A session goes on from a table** whatever the lines before were: these have been
answered piece by piece. -/
theorem run_append (h : tableAfter table lines = some after) :
    ∃ pieces, pieces.length = lines.length ∧ ∀ rest : List (Option String),
      run table (lines.map some ++ rest) = (run after rest).prependAll pieces := by
  induction lines generalizing table with
  | nil =>
    cases h
    exact ⟨[], rfl, fun _ => rfl⟩
  | cons line lines ih =>
    obtain ⟨shown, next, hstep, hrest, -⟩ := tableAfter_cons h
    obtain ⟨pieces, hlength, hrun⟩ := ih hrest
    refine ⟨piece shown :: pieces, congrArg Nat.succ hlength, fun rest => ?_⟩
    rw [List.map_cons, List.cons_append, run, hstep]
    show (run next (lines.map some ++ rest)).prepend (piece shown) = _
    rw [hrun]
    rfl

end Session

end Calculator
