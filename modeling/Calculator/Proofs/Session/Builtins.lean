import Calculator.Proofs.Session.Run
/-!
# Built-in functions in a session

The built-in functions are registered before the first line, and a line only ever
binds variables. So at every point of a session each spelling of their names finds
them, and no assignment to one has succeeded (`Session.builtin_kept`).
-/

namespace Calculator

open SymbolTable (key)

variable {name : String} {operation : Operation} {lines : List String}

namespace Builtins

/-- The names of the built-in functions. -/
def names : List String := all.map Prod.fst

/-- The built-in functions, as calls. -/
def calls : List Symbol := all.map fun entry => ⟨entry.1, .fn entry.2⟩

theorem mem_names_iff {word : String} : word ∈ names ↔ ∃ operation, (word, operation) ∈ all := by
  simp [names]

/-- The names are in lower case. -/
theorem key_eq_of_mem : ∀ entry ∈ all, key entry.1 = entry.1 := by
  unfold all
  simp only [List.forall_mem_cons]
  decide +kernel

/-- No two of them have one key. -/
theorem nodup_keys : (all.map (key ·.1)).Nodup := by
  unfold all
  simp only [List.map_cons, List.map_nil]
  decide +kernel

/-- **All of them are registered.** -/
theorem grants_calls : SymbolTable.empty.Grants calls table :=
  SymbolTable.grants_registerAll all .empty nodup_keys fun _ _ => SymbolTable.symbol?_empty

/-- **Every spelling of a name finds its function.** -/
theorem symbol?_of_mem (h : (key name, operation) ∈ all) :
    table.symbol? name = some ⟨key name, .fn operation⟩ := by
  have hkeys : (calls.map (key ·.name)).Nodup := by
    simpa only [calls, List.map_map, Function.comp_def] using nodup_keys
  have hfound := grants_calls.symbol?_of_mem hkeys (fun _ _ => SymbolTable.symbol?_empty)
    ⟨key name, .fn operation⟩ (List.mem_map_of_mem h)
  rwa [SymbolTable.symbol?, key_eq_of_mem _ h] at hfound

/-- A name with another key is that of none of them. -/
theorem not_isFor_of_not_mem (h : key name ∉ names) :
    ∀ call ∈ calls, call.isFor name = false := by
  intro call hcall
  obtain ⟨entry, hentry, rfl⟩ := List.mem_map.1 hcall
  refine Symbol.isFor_eq_false_iff.2 fun heq => h ?_
  rw [← heq, key_eq_of_mem entry hentry]
  exact List.mem_map_of_mem hentry

end Builtins

namespace Session

variable {table : SymbolTable}

/-- The table at a point of a session is made by calls that all succeed. -/
theorem grants_of_tableAfter (h : tableAfter Builtins.table lines = some table) :
    SymbolTable.empty.Grants
      (Builtins.calls ++ (assigned Builtins.table lines).map .ofBinding) table :=
  Builtins.grants_calls.append (grants_assigned h)

/-- **A built-in function is kept**, and nothing has been assigned to its name. -/
theorem builtin_kept (h : tableAfter Builtins.table lines = some table)
    (hmem : (key name, operation) ∈ Builtins.all) :
    table.symbol? name = some ⟨key name, .fn operation⟩ ∧
      ∀ set ∈ assigned Builtins.table lines, key set.1 ≠ key name := by
  have hvariables : ∀ call ∈ (assigned Builtins.table lines).map Symbol.ofBinding,
      call.meaning.kind = .var := by
    intro call hcall
    obtain ⟨set, -, rfl⟩ := List.mem_map.1 hcall
    rfl
  obtain ⟨hnone, hkept⟩ :=
    (grants_assigned h).of_function hvariables (Builtins.symbol?_of_mem hmem) rfl
  refine ⟨hkept, fun set hset => ?_⟩
  have hother := hnone (.ofBinding set) (List.mem_map_of_mem hset)
  rwa [Symbol.isFor_ofBinding, beq_eq_false_iff_ne] at hother

end Session

end Calculator
