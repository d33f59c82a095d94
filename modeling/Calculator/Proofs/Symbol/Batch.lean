import Calculator.Proofs.Symbol.Success
import Calculator.Proofs.Symbol.Update
/-!
# Batches of calls

A batch makes calls of one kind, in order, up to the first failure. A call fails if
its name denotes something of the other kind, and no call of the batch can bring
that about or undo it for a later one (`SymbolTable.denotes_other_of_define`). So it is
the table at the start that tells which call is the first to fail
(`SymbolTable.makeAll_fails_iff`), and the table in the end is what the calls before
that one make (`SymbolTable.makeAll_of_first`).
-/

namespace Calculator

variable {α : Type}

/-- The kind that a name of this kind is not. -/
def SymbolKind.other : SymbolKind → SymbolKind
  | var => .fn
  | fn => .var

theorem SymbolKind.ne_iff {kind kind' : SymbolKind} : kind' ≠ kind ↔ kind' = kind.other := by
  cases kind <;> cases kind' <;> decide

/-- A name and what it is asked to mean, as a call. -/
def Symbol.ofEntry (meaning : α → Meaning) (entry : String × α) : Symbol :=
  ⟨entry.1, meaning entry.2⟩

namespace SymbolTable

/-- **The name denotes something of this kind**, in whatever case it is spelled. -/
def Denotes (table : SymbolTable) (name : String) (kind : SymbolKind) : Prop :=
  ∃ meaning, table.lookup name = some meaning ∧ meaning.kind = kind

variable {table next after : SymbolTable} {name : String} {kind : SymbolKind}
variable {call : Symbol} {calls before rest : List Symbol}

theorem denotes_iff :
    table.Denotes name kind ↔ ∃ old, table.symbol? name = some old ∧ old.meaning.kind = kind := by
  simp [Denotes, lookup]

/-! ## One call -/

/-- **A call fails at a name of the other kind.** -/
theorem define_of_denotes (h : table.Denotes call.name call.meaning.kind.other) :
    table.define call =
      .error ⟨call.name, call.meaning.kind, call.meaning.kind.other⟩ := by
  obtain ⟨old, hold, hkind⟩ := denotes_iff.1 h
  rw [define_of_ne hold (SymbolKind.ne_iff.2 hkind), hkind]

/-- At any other name it succeeds. -/
theorem exists_define (h : ¬ table.Denotes call.name call.meaning.kind.other) :
    ∃ after, table.define call = .ok after := by
  cases hold : table.symbol? call.name with
  | none => exact ⟨_, define_of_none hold⟩
  | some old =>
    have hkind : old.meaning.kind = call.meaning.kind := by
      by_contra hne
      exact h (denotes_iff.2 ⟨old, hold, SymbolKind.ne_iff.1 hne⟩)
    exact ⟨_, define_of_eq hold hkind⟩

/-- A call that succeeds gives its name its kind. -/
theorem denotes_of_define (h : table.define call = .ok after) (hfor : call.isFor name) :
    after.Denotes name call.meaning.kind := by
  have hkey : key call.name = key name := eq_of_beq hfor
  rw [define_eq] at h
  split at h
  · cases h
    exact denotes_iff.2 ⟨call, by rw [symbol?_insert, if_pos hkey], rfl⟩
  · rename_i old hold
    split at h
    · cases h
      exact denotes_iff.2 ⟨old.updated call, by rw [symbol?_insert, if_pos hkey],
        kind_updated old call⟩
    · cases h

/-- A name denotes one kind of thing. -/
theorem Denotes.kind_unique {kind' : SymbolKind} (h : table.Denotes name kind)
    (h' : table.Denotes name kind') : kind = kind' := by
  obtain ⟨meaning, hmeaning, rfl⟩ := h
  obtain ⟨meaning', hmeaning', rfl⟩ := h'
  rw [hmeaning] at hmeaning'
  cases hmeaning'
  rfl

/-- **No call makes or unmakes names of the other kind.** -/
theorem denotes_other_of_define (h : table.define call = .ok next) :
    next.Denotes name call.meaning.kind.other ↔ table.Denotes name call.meaning.kind.other := by
  cases hfor : call.isFor name with
  | false => rw [denotes_iff, denotes_iff, symbol?_of_define h hfor]
  | true =>
    -- The name of the call has the kind of the call after it, and had no other before.
    refine iff_of_false (fun hother => ?_) fun hother => ?_
    · have hkind := (denotes_of_define h hfor).kind_unique hother
      exact SymbolKind.ne_iff.2 hkind rfl
    · rw [denotes_iff, ← symbol?_eq_of_isFor hfor, ← denotes_iff] at hother
      rw [define_of_denotes hother] at h
      cases h

/-! ## Calls one after the other -/

namespace Grants

/-- Calls of one kind make or unmake no names of the other. -/
theorem denotes_other_iff (h : table.Grants calls after)
    (hkind : ∀ call ∈ calls, call.meaning.kind = kind) :
    after.Denotes name kind.other ↔ table.Denotes name kind.other := by
  induction h with
  | nil => rfl
  | cons hdefine _ ih =>
    obtain ⟨rfl, hrest⟩ := List.forall_mem_cons.1 hkind
    rw [ih hrest, denotes_other_of_define hdefine]

/-- Calls that all succeed are made one at a time. -/
theorem foldlM_eq (h : table.Grants calls after) : calls.foldlM define table = .ok after := by
  induction h with
  | nil => rfl
  | cons hdefine _ ih =>
    rw [List.foldlM_cons, hdefine]
    exact ih

end Grants

/-- Calls of one kind all succeed if each of their names is free of the other. -/
theorem exists_grants (hkind : ∀ call ∈ calls, call.meaning.kind = kind)
    (hfree : ∀ call ∈ calls, ¬ table.Denotes call.name kind.other) :
    ∃ after, table.Grants calls after := by
  induction calls generalizing table with
  | nil => exact ⟨table, .nil⟩
  | cons call calls ih =>
    obtain ⟨rfl, hkinds⟩ := List.forall_mem_cons.1 hkind
    obtain ⟨hfirst, hrest⟩ := List.forall_mem_cons.1 hfree
    obtain ⟨next, hdefine⟩ := exists_define hfirst
    obtain ⟨after, hafter⟩ := ih hkinds fun other hmem hdenotes =>
      hrest other hmem ((denotes_other_of_define hdefine).1 hdenotes)
    exact ⟨after, .cons hdefine hafter⟩

/-! ## Batches -/

/-- **Makes calls in order**, up to the first failure. -/
def makeAll (table : SymbolTable) : List Symbol → Except SymbolError Unit × SymbolTable
  | [] => (.ok (), table)
  | call :: rest =>
    match table.define call with
    | .ok next => next.makeAll rest
    | .error error => (.error error, table)

/-- Binding variables is such a batch. -/
theorem bindAll_eq_makeAll (table : SymbolTable) (bindings : List (String × Float)) :
    table.bindAll bindings = table.makeAll (bindings.map (.ofEntry .var)) := by
  induction bindings generalizing table with
  | nil => rfl
  | cons binding bindings ih =>
    obtain ⟨name, value⟩ := binding
    show _ = match table.bind name value with
      | .ok next => next.makeAll (bindings.map (.ofEntry .var))
      | .error error => (.error error, table)
    rw [bindAll]
    cases table.bind name value with
    | ok next => exact ih next
    | error error => rfl

/-- So is registering functions. -/
theorem registerAll_eq_makeAll (table : SymbolTable) (operations : List (String × Operation)) :
    table.registerAll operations = table.makeAll (operations.map (.ofEntry .fn)) := by
  induction operations generalizing table with
  | nil => rfl
  | cons entry operations ih =>
    obtain ⟨name, operation⟩ := entry
    show _ = match table.register name operation with
      | .ok next => next.makeAll (operations.map (.ofEntry .fn))
      | .error error => (.error error, table)
    rw [registerAll]
    cases table.register name operation with
    | ok next => exact ih next
    | error error => rfl

/-- A batch goes on from the table that calls without a failure leave. -/
theorem makeAll_append (h : table.Grants before next) (rest : List Symbol) :
    table.makeAll (before ++ rest) = next.makeAll rest := by
  induction h with
  | nil => rfl
  | cons hdefine _ ih =>
    rw [List.cons_append, makeAll, hdefine]
    exact ih

/-- **A batch without a name of the other kind makes all its calls.** -/
theorem makeAll_of_free (hkind : ∀ call ∈ calls, call.meaning.kind = kind)
    (hfree : ∀ call ∈ calls, ¬ table.Denotes call.name kind.other) :
    ∃ after, table.Grants calls after ∧ table.makeAll calls = (.ok (), after) := by
  obtain ⟨after, hafter⟩ := exists_grants hkind hfree
  have hall := makeAll_append hafter []
  rw [List.append_nil] at hall
  exact ⟨after, hafter, hall⟩

/-- **Any other makes those before the first such name**, and fails there. -/
theorem makeAll_of_first (hkind : ∀ other ∈ before ++ call :: rest, other.meaning.kind = kind)
    (hfree : ∀ other ∈ before, ¬ table.Denotes other.name kind.other)
    (hcall : table.Denotes call.name kind.other) :
    ∃ after, table.Grants before after ∧
      table.makeAll (before ++ call :: rest) = (.error ⟨call.name, kind, kind.other⟩, after) := by
  obtain ⟨hbefore, hlater⟩ := List.forall_mem_append.1 hkind
  obtain ⟨rfl, -⟩ := List.forall_mem_cons.1 hlater
  obtain ⟨after, hafter⟩ := exists_grants hbefore hfree
  have hstill := (hafter.denotes_other_iff hbefore).2 hcall
  refine ⟨after, hafter, ?_⟩
  rw [makeAll_append hafter, makeAll, define_of_denotes hstill]

/-- **A batch fails if one of its names is of the other kind at the start.** -/
theorem makeAll_fails_iff (hkind : ∀ call ∈ calls, call.meaning.kind = kind) :
    (∃ error, (table.makeAll calls).1 = .error error) ↔
      ∃ call ∈ calls, table.Denotes call.name kind.other := by
  classical
  constructor
  · rintro ⟨error, herror⟩
    by_contra hnone
    obtain ⟨after, -, hall⟩ :=
      makeAll_of_free hkind fun call hmem hcall => hnone ⟨call, hmem, hcall⟩
    rw [hall] at herror
    cases herror
  · rintro ⟨call, hmem, hcall⟩
    have hfound : (calls.find? fun call => table.Denotes call.name kind.other).isSome := by
      rw [List.find?_isSome]
      exact ⟨call, hmem, decide_eq_true hcall⟩
    obtain ⟨first, hfirst⟩ := Option.isSome_iff_exists.1 hfound
    obtain ⟨hdenotes, before, rest, rfl, hfree⟩ := List.find?_eq_some_iff_append.1 hfirst
    obtain ⟨after, -, hstopped⟩ := makeAll_of_first hkind
      (fun other hother => by simpa using hfree other hother) (of_decide_eq_true hdenotes)
    exact ⟨_, congrArg Prod.fst hstopped⟩

/-- What evaluating with bindings gives. -/
theorem bindAndEvaluate_fst (table : SymbolTable) (source : String)
    (bindings : List (String × Float)) :
    (table.bindAndEvaluate source bindings).1 =
      match (table.bindAll bindings).1 with
      | .ok () => (table.bindAll bindings).2.evaluate source
      | .error error => .error (.symbol error) := by
  rw [bindAndEvaluate]
  generalize table.bindAll bindings = outcome
  obtain ⟨_ | _, after⟩ := outcome
  · rfl
  · rfl

/-- **What a batch of entries keeps**, told from the table it starts on. It fails at
the first name of the other kind, as that name is spelled in the batch, and leaves
what the entries before it make one at a time. -/
structure KeepsPrefix (table : SymbolTable) (kind : SymbolKind)
    (single : SymbolTable → String × α → Except SymbolError SymbolTable)
    (entries : List (String × α)) (outcome : Except SymbolError Unit × SymbolTable) : Prop where
  fails_iff : (∃ error, outcome.1 = .error error) ↔
    ∃ entry ∈ entries, table.Denotes entry.1 kind.other
  of_first : ∀ before name a rest, entries = before ++ (name, a) :: rest →
    (∀ entry ∈ before, ¬ table.Denotes entry.1 kind.other) → table.Denotes name kind.other →
    outcome.1 = .error ⟨name, kind, kind.other⟩ ∧ before.foldlM single table = .ok outcome.2
  of_free : (∀ entry ∈ entries, ¬ table.Denotes entry.1 kind.other) →
    outcome.1 = .ok () ∧ entries.foldlM single table = .ok outcome.2

/-- **Batches of entries keep their prefix.** -/
theorem keepsPrefix_makeAll {meaning : α → Meaning} (hkind : ∀ a, (meaning a).kind = kind)
    (table : SymbolTable) (entries : List (String × α)) :
    table.KeepsPrefix kind (fun table entry => table.define (.ofEntry meaning entry)) entries
      (table.makeAll (entries.map (.ofEntry meaning))) := by
  have hkinds (part : List (String × α)) :
      ∀ call ∈ part.map (Symbol.ofEntry meaning), call.meaning.kind = kind := by
    rw [List.forall_mem_map]
    exact fun entry _ => hkind entry.2
  refine ⟨?_, fun before name a rest hsplit hfree hname => ?_, fun hfree => ?_⟩
  · rw [makeAll_fails_iff (hkinds entries)]
    simp only [List.mem_map, exists_exists_and_eq_and]
    rfl
  · subst hsplit
    have hall := hkinds (before ++ (name, a) :: rest)
    rw [List.map_append, List.map_cons] at hall ⊢
    obtain ⟨after, hafter, hstopped⟩ :=
      makeAll_of_first hall (List.forall_mem_map.2 hfree) hname
    rw [hstopped, ← List.foldlM_map]
    exact ⟨rfl, hafter.foldlM_eq⟩
  · obtain ⟨after, hafter, hdone⟩ := makeAll_of_free (hkinds entries) (List.forall_mem_map.2 hfree)
    rw [hdone, ← List.foldlM_map]
    exact ⟨rfl, hafter.foldlM_eq⟩

end SymbolTable

/-- **Batches fail by the table they start from and keep exactly the prefix.** Binding
variables fails at the first name that denotes a function there, and registering
functions at the first that denotes a variable. What was bound or registered before
stays, and nothing after it is. Evaluating with bindings leaves the table that these
leave, whatever the source is; it fails as they do, or has the source's outcome there. -/
theorem batches_keep_prefix (table : SymbolTable) :
    (∀ bindings : List (String × Float),
      table.KeepsPrefix .var (fun table binding => table.bind binding.1 binding.2) bindings
        (table.bindAll bindings)) ∧
    (∀ operations : List (String × Operation),
      table.KeepsPrefix .fn (fun table entry => table.register entry.1 entry.2) operations
        (table.registerAll operations)) ∧
    ∀ (source : String) (bindings : List (String × Float)),
      (table.bindAndEvaluate source bindings).2 = (table.bindAll bindings).2 ∧
      (∀ error, (table.bindAll bindings).1 = .error error →
        (table.bindAndEvaluate source bindings).1 = .error (.symbol error)) ∧
      ((table.bindAll bindings).1 = .ok () →
        (table.bindAndEvaluate source bindings).1 =
          (table.bindAll bindings).2.evaluate source) := by
  have hvar (value : Float) : (Meaning.var value).kind = .var := rfl
  have hfn (operation : Operation) : (Meaning.fn operation).kind = .fn := rfl
  refine ⟨fun bindings => ?_, fun operations => ?_, fun source bindings =>
    ⟨table.bindAndEvaluate_snd source bindings, fun error herror => ?_, fun hok => ?_⟩⟩
  · rw [SymbolTable.bindAll_eq_makeAll]
    exact SymbolTable.keepsPrefix_makeAll hvar table bindings
  · rw [SymbolTable.registerAll_eq_makeAll]
    exact SymbolTable.keepsPrefix_makeAll hfn table operations
  · rw [SymbolTable.bindAndEvaluate_fst, herror]
  · rw [SymbolTable.bindAndEvaluate_fst, hok]

/-- A variable `x` of this value, and a function `f` that always has it. -/
def SymbolTable.variableAndFunction (value : Float) : SymbolTable :=
  (SymbolTable.empty.insert "x" ⟨"x", .var value⟩).insert "f" ⟨"f", .fn (.ofCurried 0 value)⟩

/-- Another spelling of the function stops variables, and another spelling of the
variable stops functions. What is before it stays, and a source is not looked at
before its variables are bound. -/
theorem batches_stop_at_other_spelling :
    ((SymbolTable.variableAndFunction 1.0).bindAll [("y", 2.0), ("F", 3.0), ("z", 4.0)]).1 =
      .error ⟨"F", .var, .fn⟩ ∧
    (SymbolTable.variableAndFunction 1.0).bind "y" 2.0 =
      .ok ((SymbolTable.variableAndFunction 1.0).bindAll [("y", 2.0), ("F", 3.0), ("z", 4.0)]).2 ∧
    ((SymbolTable.variableAndFunction 1.0).registerAll
      [("X", .ofCurried 0 (2.0 : Float)), ("g", .ofCurried 0 (3.0 : Float))]).1 =
      .error ⟨"X", .fn, .var⟩ ∧
    ((SymbolTable.variableAndFunction 1.0).bindAndEvaluate "z)"
      [("y", 2.0), ("F", 3.0), ("z", 4.0)]).1 = .error (.symbol ⟨"F", .var, .fn⟩) ∧
    ((SymbolTable.variableAndFunction 1.0).bindAndEvaluate "z)" [("y", 2.0)]).1 =
      ((SymbolTable.variableAndFunction 1.0).bindAll [("y", 2.0)]).2.evaluate "z)" := by
  have hvariable (value : Float) :
      (SymbolTable.variableAndFunction value).lookup "X" = some (.var value) := by
    cbv
  have hfunction (value : Float) :
      (SymbolTable.variableAndFunction value).lookup "F" = some (.fn (.ofCurried 0 value)) := by
    cbv
  have hnone (value : Float) : (SymbolTable.variableAndFunction value).lookup "y" = none := by
    cbv
  have hfree : ¬ (SymbolTable.variableAndFunction 1.0).Denotes "y" .fn := by
    simp [SymbolTable.Denotes, hnone 1.0]
  obtain ⟨hbind, hregister, hevaluate⟩ :=
    batches_keep_prefix (SymbolTable.variableAndFunction 1.0)
  obtain ⟨hstopped, hkept⟩ := (hbind [("y", 2.0), ("F", 3.0), ("z", 4.0)]).of_first
    [("y", 2.0)] "F" 3.0 [("z", 4.0)] rfl (List.forall_mem_singleton.2 hfree)
    ⟨_, hfunction 1.0, rfl⟩
  obtain ⟨hstopped', -⟩ := (hregister
    [("X", .ofCurried 0 (2.0 : Float)), ("g", .ofCurried 0 (3.0 : Float))]).of_first
    [] "X" _ _ rfl (List.forall_mem_nil _) ⟨_, hvariable 1.0, rfl⟩
  obtain ⟨hdone, -⟩ := (hbind [("y", 2.0)]).of_free (List.forall_mem_singleton.2 hfree)
  obtain ⟨-, hfailed, -⟩ := hevaluate "z)" [("y", 2.0), ("F", 3.0), ("z", 4.0)]
  obtain ⟨-, -, hevaluated⟩ := hevaluate "z)" [("y", 2.0)]
  rw [List.foldlM_cons] at hkept
  exact ⟨hstopped, (bind_pure _).symm.trans hkept, hstopped', hfailed _ hstopped, hevaluated hdone⟩

end Calculator
