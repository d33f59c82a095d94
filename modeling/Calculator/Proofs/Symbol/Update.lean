import Calculator.Evaluation
import Std.Data.TreeMap.Lemmas
/-!
# What updates keep

An update of a table binds variables or registers functions, one or many,
and whether it succeeds or fails it leaves a table. A name that stands for
something keeps standing for something of the same kind, along any run of
updates (`SymbolTable.keepsKinds_run`): nothing is ever removed, and neither
kind turns into the other.
-/

namespace Calculator

namespace SymbolTable

/-- One thing a caller can do to a table. A set of functions is registered
as the list of its functions. -/
inductive Update where
  | bind (name : String) (value : Float)
  | bindAll (bindings : List (String × Float))
  | register (name : String) (operation : Operation)
  | registerAll (operations : List (String × Operation))
  | bindAndEvaluate (source : String) (bindings : List (String × Float))

/-- **The table an update leaves**, also where it fails. -/
def apply (table : SymbolTable) : Update → SymbolTable
  | .bind name value => (table.bind name value).toOption.getD table
  | .bindAll bindings => (table.bindAll bindings).2
  | .register name operation => (table.register name operation).toOption.getD table
  | .registerAll operations => (table.registerAll operations).2
  | .bindAndEvaluate source bindings => (table.bindAndEvaluate source bindings).2

/-- The table a sequence of updates leaves. -/
def run (table : SymbolTable) (updates : List Update) : SymbolTable := updates.foldl apply table

/-- **Each name that stood for something stands for something of its kind.** -/
def KeepsKinds (before after : SymbolTable) : Prop :=
  ∀ name meaning, before.lookup name = some meaning →
    ∃ meaning', after.lookup name = some meaning' ∧ meaning'.kind = meaning.kind

variable {table before after : SymbolTable} {name : String} {symbol : Symbol}

theorem KeepsKinds.refl (table : SymbolTable) : table.KeepsKinds table :=
  fun _ meaning h => ⟨meaning, h, rfl⟩

theorem KeepsKinds.trans {last : SymbolTable} (h : before.KeepsKinds after)
    (h' : after.KeepsKinds last) : before.KeepsKinds last := by
  intro name meaning hmeaning
  obtain ⟨next, hnext, hkind⟩ := h name meaning hmeaning
  obtain ⟨final, hfinal, hkind'⟩ := h' name next hnext
  exact ⟨final, hfinal, hkind'.trans hkind⟩

/-- **One key is written**, and every other symbol stays. -/
theorem symbol?_insert (table : SymbolTable) (name other : String) (symbol : Symbol) :
    (table.insert name symbol).symbol? other =
      if key name = key other then some symbol else table.symbol? other := by
  rw [symbol?, insert, Std.TreeMap.getElem?_insert]
  simp only [Std.compare_eq_iff_eq]
  rfl

/-- A symbol may take the place of one of its kind, or of none. -/
theorem KeepsKinds.insert
    (h : ∀ old, table.symbol? name = some old → symbol.meaning.kind = old.meaning.kind) :
    table.KeepsKinds (table.insert name symbol) := by
  intro other meaning hmeaning
  unfold lookup at hmeaning ⊢
  rw [symbol?_insert]
  -- Names that differ in letter case only are one symbol.
  by_cases hkey : key name = key other
  · obtain ⟨old, hold, rfl⟩ := Option.map_eq_some_iff.1 hmeaning
    have hname : table.symbol? name = some old := by
      rw [symbol?, hkey]
      exact hold
    rw [if_pos hkey]
    exact ⟨symbol.meaning, rfl, h old hname⟩
  · rw [if_neg hkey]
    exact ⟨meaning, hmeaning, rfl⟩

/-! ## Single updates -/

theorem keepsKinds_of_bind {value : Float} (h : table.bind name value = .ok after) :
    table.KeepsKinds after := by
  unfold bind at h
  split at h
  · rename_i hnone
    cases h
    refine .insert fun old hold => ?_
    rw [hnone] at hold
    cases hold
  · rename_i hsome
    cases h
    refine .insert fun old hold => ?_
    rw [hsome] at hold
    cases hold
    rfl
  · cases h

theorem keepsKinds_of_register {operation : Operation}
    (h : table.register name operation = .ok after) : table.KeepsKinds after := by
  unfold register at h
  split at h
  · cases h
  · rename_i hvar
    cases h
    refine .insert fun old hold => ?_
    obtain ⟨spelling, meaning⟩ := old
    cases meaning with
    | var value => exact absurd hold (hvar spelling value)
    | fn _ => rfl

theorem keepsKinds_bindAll (table : SymbolTable) (bindings : List (String × Float)) :
    table.KeepsKinds (table.bindAll bindings).2 := by
  fun_induction bindAll table bindings with
  | case1 table => exact .refl table
  | case2 table name value rest next h ih => exact (keepsKinds_of_bind h).trans ih
  | case3 table => exact .refl table

theorem keepsKinds_registerAll (table : SymbolTable) (operations : List (String × Operation)) :
    table.KeepsKinds (table.registerAll operations).2 := by
  fun_induction registerAll table operations with
  | case1 table => exact .refl table
  | case2 table name operation rest next h ih => exact (keepsKinds_of_register h).trans ih
  | case3 table => exact .refl table

/-- Evaluating with bindings leaves the table that binding them leaves. -/
theorem bindAndEvaluate_snd (table : SymbolTable) (source : String)
    (bindings : List (String × Float)) :
    (table.bindAndEvaluate source bindings).2 = (table.bindAll bindings).2 := by
  unfold bindAndEvaluate
  split <;> rename_i h <;> rw [h]

/-! ## Runs -/

/-- **One update keeps the kind of every name.** -/
theorem keepsKinds_apply (table : SymbolTable) (update : Update) :
    table.KeepsKinds (table.apply update) := by
  cases update with
  | bind name value =>
    show table.KeepsKinds ((table.bind name value).toOption.getD table)
    cases h : table.bind name value with
    | error error => exact .refl table
    | ok after => exact keepsKinds_of_bind h
  | bindAll bindings => exact table.keepsKinds_bindAll bindings
  | register name operation =>
    show table.KeepsKinds ((table.register name operation).toOption.getD table)
    cases h : table.register name operation with
    | error error => exact .refl table
    | ok after => exact keepsKinds_of_register h
  | registerAll operations => exact table.keepsKinds_registerAll operations
  | bindAndEvaluate source bindings =>
    show table.KeepsKinds (table.bindAndEvaluate source bindings).2
    rw [bindAndEvaluate_snd]
    exact table.keepsKinds_bindAll bindings

/-- **And so does every run of updates.** -/
theorem keepsKinds_run (table : SymbolTable) (updates : List Update) :
    table.KeepsKinds (table.run updates) := by
  induction updates generalizing table with
  | nil => exact .refl table
  | cons update updates ih => exact (table.keepsKinds_apply update).trans (ih (table.apply update))

end SymbolTable

end Calculator
