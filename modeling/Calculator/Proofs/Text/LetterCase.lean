import Mathlib
import Calculator.Proofs.Symbol.Update
/-!
# The case of ASCII letters

`Char.toLower` changes the twenty-six capital letters of ASCII and nothing else,
so what tells no small letter from its capital tells nothing apart that differs in
case only (`Text.apply_toLower`). The full lower case is such a thing: it is the
same whether a text is made small before or not (`Text.lowerCase_toLower`), so
neither does a symbol table tell such names apart.
-/

namespace Calculator

namespace Text

/-- **What is the same for each capital and its small letter** is the same for every
character and its small form. -/
theorem apply_toLower {α : Type} (p : Char → α)
    (h : ∀ n : Fin 26, p (Char.ofNat (n + 65)).toLower = p (Char.ofNat (n + 65))) (c : Char) :
    p c.toLower = p c := by
  by_cases hupper : c.isUpper
  · have hrange : 65 ≤ c.toNat ∧ c.toNat ≤ 90 := by
      simpa [Char.isUpper, UInt32.le_iff_toNat_le] using hupper
    have hc : Char.ofNat (c.toNat - 65 + 65) = c := by
      rw [Nat.sub_add_cancel hrange.1, Char.ofNat_toNat]
    have hletter := h ⟨c.toNat - 65, by omega⟩
    rwa [hc] at hletter
  · rw [Char.toLower_eq_of_not_isUpper hupper]

/-! ## The full lower case -/

@[simp] theorem isCased_toLower (c : Char) : isCased c.toLower = isCased c :=
  apply_toLower isCased (by decide +kernel) c

/-- No search for a letter passes over one of ASCII. -/
theorem not_isCaseIgnorable {c : Char} (h : c.isAlpha) : isCaseIgnorable c = false := by
  have hranges : ∀ range ∈ caseIgnorable, range.2 < 65 ∨ 90 < range.1 ∧ range.2 < 97 ∨
      122 < range.1 := by decide +kernel
  have hletter : 65 ≤ c.toNat ∧ c.toNat ≤ 90 ∨ 97 ≤ c.toNat ∧ c.toNat ≤ 122 := by
    simpa [Char.isAlpha, Char.isUpper, Char.isLower, UInt32.le_iff_toNat_le] using h
  rw [isCaseIgnorable, inRanges, List.any_eq_false]
  intro range hrange
  have := hranges range hrange
  simp only [Bool.and_eq_true, decide_eq_true_eq]
  omega

@[simp] theorem isCaseIgnorable_toLower (c : Char) :
    isCaseIgnorable c.toLower = isCaseIgnorable c := by
  by_cases hletter : c.isAlpha
  · rw [not_isCaseIgnorable hletter, not_isCaseIgnorable (by simpa using hletter)]
  · have hupper : ¬ c.isUpper := fun h => hletter (by simp [Char.isAlpha, h])
    rw [Char.toLower_eq_of_not_isUpper hupper]

@[simp] theorem smallForm_toLower (c : Char) : smallForm c.toLower = smallForm c :=
  apply_toLower smallForm (by decide +kernel) c

variable (s before after : List Char)

/-- The letter that a text shows first has case in either form. -/
theorem meetsLetter_map_toLower : meetsLetter (s.map Char.toLower) = meetsLetter s := by
  have hdrop : (s.map Char.toLower).dropWhile isCaseIgnorable =
      (s.dropWhile isCaseIgnorable).map Char.toLower := by
    rw [List.dropWhile_map]
    congr 2
    exact funext isCaseIgnorable_toLower
  unfold meetsLetter
  rw [hdrop]
  cases s.dropWhile isCaseIgnorable with
  | nil => rfl
  | cons c rest => exact isCased_toLower c

/-- So the small form of a character in its place is the same. -/
theorem smallFormAt_map_toLower (c : Char) :
    smallFormAt (before.map Char.toLower) c.toLower (after.map Char.toLower) =
      smallFormAt before c after := by
  have hsigma : (c.toLower == 'Σ') = (c == 'Σ') :=
    apply_toLower (· == 'Σ') (by decide +kernel) c
  unfold smallFormAt
  rw [hsigma, meetsLetter_map_toLower, meetsLetter_map_toLower, smallForm_toLower]

/-- And so is the lower case of a whole text, character by character. -/
theorem lowerCaseAfter_map_toLower :
    lowerCaseAfter (before.map Char.toLower) (s.map Char.toLower) = lowerCaseAfter before s := by
  induction s generalizing before with
  | nil => rfl
  | cons c after ih =>
    rw [List.map_cons, lowerCaseAfter, lowerCaseAfter, smallFormAt_map_toLower, ← List.map_cons, ih]

/-- A text and its small letters. -/
theorem toList_toLower (s : String) : s.toLower.toList = s.toList.map Char.toLower :=
  String.toList_map

/-- **The case of ASCII letters is lost in the full lower case.** -/
@[simp] theorem lowerCase_toLower (s : String) : lowerCase s.toLower = lowerCase s := by
  have hnone := lowerCaseAfter_map_toLower s.toList []
  rw [List.map_nil] at hnone
  rw [lowerCase, toList_toLower, hnone, lowerCase]

/-- **The lower case of a text of ASCII** is that of its characters one by one. -/
theorem lowerCaseAfter_of_ascii {s : List Char} (h : ∀ c ∈ s, c.toNat < 0x80)
    (before : List Char) : lowerCaseAfter before s = s.map Char.toLower := by
  induction s generalizing before with
  | nil => rfl
  | cons c after ih =>
    obtain ⟨hc, hafter⟩ := List.forall_mem_cons.1 h
    have hsigma : (c == 'Σ') = false := by
      rw [beq_eq_false_iff_ne]
      rintro rfl
      exact absurd hc (by decide)
    rw [lowerCaseAfter, ih hafter, smallFormAt, hsigma, smallForm, if_pos hc]
    rfl

theorem lowerCase_of_ascii {s : String} (h : ∀ c ∈ s.toList, c.toNat < 0x80) :
    lowerCase s = s.toLower := by
  rw [lowerCase, lowerCaseAfter_of_ascii h, ← toList_toLower, String.ofList_toList]

/-! ## Letters that are small already -/

/-- A character behind the capitals of ASCII is none of them. -/
theorem toLower_ofNat {n : Nat} (h : 90 < n) : (Char.ofNat n).toLower = Char.ofNat n := by
  refine Char.toLower_eq_of_not_isUpper fun hupper => ?_
  have hrange : 65 ≤ (Char.ofNat n).toNat ∧ (Char.ofNat n).toNat ≤ 90 := by
    simpa [Char.isUpper, UInt32.le_iff_toNat_le] using hupper
  rw [Char.toNat_ofNat] at hrange
  split_ifs at hrange <;> omega

/-- **No small form is a capital of ASCII.** -/
theorem toLower_of_mem_smallForm {c d : Char} (h : d ∈ smallForm c) : d.toLower = d := by
  have hruns : ∀ run ∈ caseRuns, 90 < run.first + run.shift := by decide +kernel
  unfold smallForm at h
  split_ifs at h with hascii hdotted
  · rw [List.mem_singleton.1 h, Char.toLower_toLower_eq_toLower]
  · simp only [List.mem_cons, List.not_mem_nil, or_false] at h
    rcases h with rfl | rfl <;> decide
  · split at h
    · rename_i run hfind
      have hfirst : run.first ≤ c.toNat := by
        have hholds := List.find?_some hfind
        simp only [CaseRun.holds, Bool.and_eq_true, decide_eq_true_eq] at hholds
        exact hholds.1.1
      have hshift := hruns run (List.mem_of_find?_eq_some hfind)
      rw [List.mem_singleton.1 h]
      exact toLower_ofNat (by omega)
    · rw [List.mem_singleton.1 h, ← c.ofNat_toNat]
      exact toLower_ofNat (by omega)

/-- Nor is any in its place. -/
theorem toLower_of_mem_lowerCaseAfter {d : Char} (h : d ∈ lowerCaseAfter before s) :
    d.toLower = d := by
  induction s generalizing before with
  | nil => cases h
  | cons c after ih =>
    rw [lowerCaseAfter, List.mem_append] at h
    rcases h with h | h
    · unfold smallFormAt at h
      split_ifs at h
      · rw [List.mem_singleton.1 h]
        decide
      · exact toLower_of_mem_smallForm h
    · exact ih _ h

/-- **The lower case of a text holds no capital of ASCII.** -/
@[simp] theorem toLower_lowerCase (s : String) : (lowerCase s).toLower = lowerCase s := by
  rw [← String.toList_inj, toList_toLower, lowerCase, String.toList_ofList]
  exact (List.map_congr_left fun d hd => toLower_of_mem_lowerCaseAfter _ _ hd).trans
    (List.map_id _)

end Text

/-! ## Names in a table -/

namespace SymbolTable

@[simp] theorem key_toLower (name : String) : key name.toLower = key name :=
  Text.lowerCase_toLower name

/-- **A table tells no two cases of a name apart.** -/
@[simp] theorem lookup_toLower (table : SymbolTable) (name : String) :
    table.lookup name.toLower = table.lookup name := by
  rw [lookup, symbol?, key_toLower]
  rfl

end SymbolTable

end Calculator
