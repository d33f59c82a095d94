import Mathlib
import Calculator.Proofs.Symbol.Success
import Calculator.Session
/-!
# What a table lists in order

The variables of a table are told apart by the keys of their names, so by the names
themselves. Hence the names of `sortedVariables` increase strictly, and the symbols
may be visited in any order before the sort (`SymbolTable.Keyed.sort_eq_of_perm`).
-/

namespace Calculator

variable {table : SymbolTable} {symbols : List Symbol} {symbol : Symbol}
variable {binding : String × Float}

namespace Symbol

/-- A variable and its value, as a symbol. -/
def ofBinding (binding : String × Float) : Symbol := ⟨binding.1, .var binding.2⟩

theorem isFor_ofBinding (binding : String × Float) (name : String) :
    (ofBinding binding).isFor name = (SymbolTable.key binding.1 == SymbolTable.key name) := rfl

/-- The name and the value of a variable. -/
def binding? (symbol : Symbol) : Option (String × Float) :=
  match symbol.meaning with
  | .var value => some (symbol.name, value)
  | .fn _ => none

theorem binding?_eq_some_iff : symbol.binding? = some binding ↔ symbol = ofBinding binding := by
  obtain ⟨spelling, value | operation⟩ := symbol
  · simp [binding?, ofBinding, Prod.ext_iff]
  · simp [binding?, ofBinding]

end Symbol

namespace SymbolTable

/-- The order in which variables are listed. -/
def listOrder (a b : String × Float) : Bool := a.1 ≤ b.1

theorem listOrder_trans (a b c : String × Float) (hab : listOrder a b) (hbc : listOrder b c) :
    listOrder a c :=
  decide_eq_true (le_trans (of_decide_eq_true hab) (of_decide_eq_true hbc))

theorem listOrder_total (a b : String × Float) : listOrder a b || listOrder b a := by
  simpa [listOrder] using le_total a.1 b.1

/-- A variable is listed if its name is a variable. -/
theorem Keyed.mem_sortedVariables (h : table.Keyed) :
    binding ∈ table.sortedVariables ↔ table.symbol? binding.1 = some (.ofBinding binding) := by
  rw [sortedVariables, List.mem_mergeSort]
  show binding ∈ table.toList.filterMap Symbol.binding? ↔ _
  rw [List.mem_filterMap]
  simp only [Symbol.binding?_eq_some_iff, exists_eq_right]
  exact h.mem_toList

/-- Variables that are told apart by their keys are told apart by their names. -/
theorem names_distinct (h : (symbols.map (key ·.name)).Nodup) :
    (symbols.filterMap Symbol.binding?).Pairwise (fun a b => key a.1 ≠ key b.1) := by
  rw [List.pairwise_filterMap]
  rw [List.Nodup, List.pairwise_map] at h
  refine h.imp fun hne a ha b hb => ?_
  rw [Symbol.binding?_eq_some_iff.1 ha, Symbol.binding?_eq_some_iff.1 hb] at hne
  exact hne

/-- **No two variables that are listed have one key.** -/
theorem Keyed.sortedVariables_distinct (h : table.Keyed) :
    (table.sortedVariables.map (key ·.1)).Nodup := by
  rw [List.Nodup, List.pairwise_map]
  exact (List.mergeSort_perm _ _).symm.pairwise (names_distinct h.nodup_keys) (fun hne => hne.symm)

/-- Variables that are told apart by their keys are sorted strictly. -/
theorem sort_increasing {entries : List (String × Float)}
    (h : entries.Pairwise fun a b => key a.1 ≠ key b.1) :
    (entries.mergeSort listOrder).Pairwise (·.1 < ·.1) := by
  have hsorted : (entries.mergeSort listOrder).Pairwise fun a b => listOrder a b :=
    List.pairwise_mergeSort listOrder_trans listOrder_total entries
  have hdistinct := (List.mergeSort_perm entries listOrder).symm.pairwise h fun hne => hne.symm
  exact hsorted.imp₂ (fun a b hle hne => lt_of_le_of_ne (of_decide_eq_true hle)
    fun heq => hne (congrArg key heq)) hdistinct

/-- **The names increase strictly.** -/
theorem Keyed.sortedVariables_increasing (h : table.Keyed) :
    table.sortedVariables.Pairwise (·.1 < ·.1) :=
  sort_increasing (names_distinct h.nodup_keys)

/-- **The order in which the symbols are visited does not matter.** -/
theorem Keyed.sort_eq_of_perm (h : table.Keyed) (hperm : symbols.Perm table.toList) :
    (symbols.filterMap Symbol.binding?).mergeSort (fun a b => a.1 ≤ b.1) =
      table.sortedVariables := by
  have hdistinct : (symbols.map (key ·.name)).Nodup := (hperm.map _).nodup_iff.2 h.nodup_keys
  have hsame : ((symbols.filterMap Symbol.binding?).mergeSort listOrder).Perm
      table.sortedVariables :=
    ((List.mergeSort_perm _ _).trans (hperm.filterMap _)).trans (List.mergeSort_perm _ _).symm
  exact hsame.eq_of_pairwise (fun a b _ _ hab hba => absurd hba (lt_asymm hab))
    (sort_increasing (names_distinct hdistinct)) h.sortedVariables_increasing

end SymbolTable

end Calculator
