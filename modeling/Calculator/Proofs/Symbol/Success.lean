import Calculator.Proofs.Symbol.History
/-!
# Calls that all succeed

A table that calls have gone through without a failure holds what these calls
tell of a name (`SymbolTable.Grants.symbol?_eq_some_iff`). A function keeps its
operation along them if they only bind variables, and none of them is for its
name (`SymbolTable.Grants.of_function`).
-/

namespace Calculator

/-- A symbol is not one of a name if its key is another. -/
theorem Symbol.isFor_eq_false_iff {symbol : Symbol} {name : String} :
    symbol.isFor name = false ↔ SymbolTable.key symbol.name ≠ SymbolTable.key name :=
  beq_eq_false_iff_ne

namespace SymbolTable

/-- **The calls all succeed**, one after the other, and leave a table. -/
inductive Grants : SymbolTable → List Symbol → SymbolTable → Prop
  | nil {table : SymbolTable} : Grants table [] table
  | cons {table next after : SymbolTable} {call : Symbol} {calls : List Symbol} :
      table.define call = .ok next → Grants next calls after → Grants table (call :: calls) after

variable {table next after : SymbolTable} {call symbol : Symbol} {calls later : List Symbol}
variable {name : String}

/-- The empty table has no symbol. -/
theorem symbol?_empty : empty.symbol? name = none := by
  simp [symbol?, empty]

/-- What a call that succeeds leaves of the symbols. -/
theorem symbol?_of_define (h : table.define call = .ok after) (hother : call.isFor name = false) :
    after.symbol? name = table.symbol? name := by
  rw [← afterCall_of_ok h]
  exact symbol?_afterCall_of_other hother

namespace Grants

/-- Calls may go on where others ended. -/
theorem append (h : Grants table calls next) (h' : Grants next later after) :
    Grants table (calls ++ later) after := by
  induction h with
  | nil => exact h'
  | cons hdefine _ ih => exact .cons hdefine (ih h')

/-- The table they leave is that of the history, and all of them are granted. -/
theorem granted_eq (h : Grants table calls after) :
    calls.foldl afterCall table = after ∧ table.granted calls = calls := by
  induction h with
  | nil => exact ⟨rfl, rfl⟩
  | cons hdefine _ ih =>
    obtain ⟨hfold, hgranted⟩ := ih
    rw [List.foldl_cons, afterCall_of_ok hdefine, granted, hdefine]
    exact ⟨hfold, congrArg _ hgranted⟩

/-- **A name that no call is for is left alone.** -/
theorem symbol?_of_other (h : Grants table calls after)
    (hother : ∀ call ∈ calls, call.isFor name = false) :
    after.symbol? name = table.symbol? name := by
  induction h with
  | nil => rfl
  | cons hdefine _ ih =>
    obtain ⟨hfirst, hrest⟩ := List.forall_mem_cons.1 hother
    rw [ih hrest, symbol?_of_define hdefine hfirst]

/-- **A function is left alone by variables**, for none of them is given its name. -/
theorem of_function (h : Grants table calls after)
    (hvariables : ∀ call ∈ calls, call.meaning.kind = .var)
    (hsymbol : table.symbol? name = some symbol) (hfunction : symbol.meaning.kind = .fn) :
    (∀ call ∈ calls, call.isFor name = false) ∧ after.symbol? name = some symbol := by
  induction h with
  | nil => exact ⟨List.forall_mem_nil _, hsymbol⟩
  | @cons table next after call calls hdefine _ ih =>
    obtain ⟨hkind, hrest⟩ := List.forall_mem_cons.1 hvariables
    have hother : call.isFor name = false := by
      by_contra hfor
      rw [Bool.not_eq_false] at hfor
      rw [← symbol?_eq_of_isFor hfor] at hsymbol
      rw [define_of_ne hsymbol (by rw [hfunction, hkind]; decide)] at hdefine
      cases hdefine
    obtain ⟨hothers, hkept⟩ := ih hrest ((symbol?_of_define hdefine hother).trans hsymbol)
    exact ⟨List.forall_mem_cons.2 ⟨hother, hothers⟩, hkept⟩

/-- **New names with different keys are found as they were asked for.** -/
theorem symbol?_of_mem (h : Grants table calls after)
    (hnodup : (calls.map (key ·.name)).Nodup)
    (hnone : ∀ call ∈ calls, table.symbol? call.name = none) :
    ∀ call ∈ calls, after.symbol? call.name = some call := by
  induction h with
  | nil => exact List.forall_mem_nil _
  | @cons table next after call calls hdefine hgrants ih =>
    obtain ⟨hfirst, hrest⟩ := List.forall_mem_cons.1 hnone
    rw [List.map_cons, List.nodup_cons] at hnodup
    have hother : ∀ other ∈ calls, key other.name ≠ key call.name := fun other hmem heq =>
      hnodup.1 (List.mem_map.2 ⟨other, hmem, heq⟩)
    rw [define_of_none hfirst] at hdefine
    cases hdefine
    refine List.forall_mem_cons.2 ⟨?_, ih hnodup.2 fun other hmem => ?_⟩
    · rw [hgrants.symbol?_of_other fun other hmem =>
          Symbol.isFor_eq_false_iff.2 (hother other hmem),
        symbol?_insert, if_pos rfl]
    · rw [symbol?_insert, if_neg (hother other hmem).symm]
      exact hrest other hmem

/-- **What a table holds after them** is the first of the calls for a name, updated by
the last. -/
theorem symbol?_eq_some_iff (h : Grants empty calls table) :
    table.symbol? name = some symbol ↔ ∃ first last,
      calls.find? (·.isFor name) = some first ∧
      (calls.filter (·.isFor name)).getLast? = some last ∧ symbol = first.updated last := by
  obtain ⟨rfl, hgranted⟩ := h.granted_eq
  have hrecalls := Recalls.ofHistory calls name
  rw [ofHistory] at hrecalls
  generalize (calls.foldl afterCall empty).symbol? name = found at hrecalls
  cases hrecalls with
  | nothing hnone => simp [hnone]
  | @symbol first last hfirst hlast _ =>
    rw [hgranted] at hlast
    constructor
    · rintro ⟨⟩
      exact ⟨first, last, hfirst, hlast, rfl⟩
    · rintro ⟨first', last', hfirst', hlast', rfl⟩
      rw [hfirst] at hfirst'
      rw [hlast] at hlast'
      cases hfirst'
      cases hlast'
      rfl

/-- Symbols stay under the keys of their names. -/
theorem keyed (h : Grants empty calls table) : table.Keyed := by
  obtain ⟨rfl, -⟩ := h.granted_eq
  exact keyed_ofHistory calls

end Grants

/-- **New functions with different keys are all registered.** -/
theorem grants_registerAll (operations : List (String × Operation)) (table : SymbolTable)
    (hnodup : (operations.map (key ·.1)).Nodup)
    (hnone : ∀ entry ∈ operations, table.symbol? entry.1 = none) :
    Grants table (operations.map fun entry => ⟨entry.1, .fn entry.2⟩)
      (table.registerAll operations).2 := by
  induction operations generalizing table with
  | nil => exact .nil
  | cons entry operations ih =>
    obtain ⟨name, operation⟩ := entry
    obtain ⟨hfirst, hrest⟩ := List.forall_mem_cons.1 hnone
    rw [List.map_cons, List.nodup_cons] at hnodup
    have hnew : table.symbol? (Symbol.mk name (.fn operation)).name = none := hfirst
    have hdefine : table.register name operation = .ok (table.insert name ⟨name, .fn operation⟩) :=
      define_of_none hnew
    have hnext := ih (table.insert name ⟨name, .fn operation⟩) hnodup.2 fun other hmem => by
      rw [symbol?_insert, if_neg fun heq => hnodup.1 (List.mem_map.2 ⟨other, hmem, heq.symm⟩)]
      exact hrest other hmem
    rw [registerAll, hdefine]
    exact .cons hdefine hnext

end SymbolTable

end Calculator
