import Mathlib
import Calculator.Session
/-!
# Lines of an input

An input is its lines one after the other (`Session.flatten_splitLines`). Each but the
last ends with its only line feed, and that is all there is to being the lines of an
input (`Session.splitLines_flatten`). So lines may be left out, and what remains are
the lines of the shorter input (`Session.IsLines.sublist`). A session that reads one line
at a time (`Session.takeLine`) is the session over all of them (`Session.run_eq_turn`).
-/

namespace Calculator

namespace Session

variable {line body : List UInt8} {lines lines' : List (List UInt8)}

/-- **These are the lines of an input**: each ends with its only line feed, but the last
may lack it if it holds anything else. -/
inductive IsLines : List (List UInt8) → Prop
  | nil : IsLines []
  | last {line : List UInt8} : line ≠ [] → lineFeed ∉ line → IsLines [line]
  | cons {body : List UInt8} {lines : List (List UInt8)} :
      lineFeed ∉ body → IsLines lines → IsLines ((body ++ [lineFeed]) :: lines)

/-- What holds no line feed is one line. -/
theorem splitLines_of_not_mem (hne : line ≠ []) (h : lineFeed ∉ line) :
    splitLines line = [line] := by
  induction line with
  | nil => exact absurd rfl hne
  | cons byte line ih =>
    have hline := List.not_mem_of_not_mem_cons h
    rw [splitLines, if_neg (List.ne_of_not_mem_cons h).symm]
    cases line with
    | nil => rfl
    | cons next line => rw [ih (List.cons_ne_nil next line) hline]

/-- **A line is taken off up to its line feed.** -/
theorem splitLines_append (h : lineFeed ∉ body) (rest : List UInt8) :
    splitLines (body ++ [lineFeed] ++ rest) = (body ++ [lineFeed]) :: splitLines rest := by
  induction body with
  | nil => exact if_pos rfl
  | cons byte body ih =>
    rw [List.cons_append, List.cons_append, splitLines, if_neg (List.ne_of_not_mem_cons h).symm,
      ih (List.not_mem_of_not_mem_cons h)]

/-- **The lines of an input are found in it again.** -/
theorem splitLines_flatten (h : IsLines lines) : splitLines lines.flatten = lines := by
  induction h with
  | nil => rfl
  | last hne hline => rw [List.flatten_singleton, splitLines_of_not_mem hne hline]
  | cons hbody _ ih => rw [List.flatten_cons, splitLines_append hbody, ih]

/-- Nothing is lost between them. -/
theorem flatten_splitLines (input : List UInt8) : (splitLines input).flatten = input := by
  fun_induction splitLines input with
  | case1 => rfl
  | case2 rest ih => rw [List.flatten_cons, ih, List.singleton_append]
  | case3 byte rest hbyte hnone ih =>
    rw [hnone] at ih
    rw [← ih]
    rfl
  | case4 byte rest hbyte line lines hsplit ih =>
    rw [hsplit] at ih
    rw [← ih, List.flatten_cons, List.flatten_cons, List.cons_append]

/-- **What an input is split into are lines.** -/
theorem isLines_splitLines (input : List UInt8) : IsLines (splitLines input) := by
  fun_induction splitLines input with
  | case1 => exact .nil
  | case2 rest ih =>
    have hempty : lineFeed ∉ [] := List.not_mem_nil
    exact .cons hempty ih
  | case3 byte rest hbyte _ _ =>
    exact .last (List.cons_ne_nil byte []) (mt List.mem_singleton.1 (Ne.symm hbyte))
  | case4 byte rest hbyte line lines hsplit ih =>
    rw [hsplit] at ih
    -- the first byte joins the first line, and it is no line feed
    cases ih with
    | last hne hline =>
      have hnone := List.not_mem_cons_of_ne_of_not_mem (Ne.symm hbyte) hline
      exact .last (List.cons_ne_nil byte line) hnone
    | cons hbody hlines =>
      have hnone := List.not_mem_cons_of_ne_of_not_mem (Ne.symm hbyte) hbody
      exact .cons hnone hlines

/-- **Lines may be left out.** -/
theorem IsLines.sublist (h : IsLines lines) (hsub : lines'.Sublist lines) : IsLines lines' := by
  induction h generalizing lines' with
  | nil =>
    rw [List.sublist_nil.1 hsub]
    exact .nil
  | last hne hline =>
    rcases List.sublist_singleton.1 hsub with rfl | rfl
    · exact .nil
    · exact .last hne hline
  | cons hbody _ ih =>
    cases hsub with
    | cons _ hrest => exact ih hrest
    | cons_cons _ hrest => exact .cons hbody (ih hrest)

/-! ## Lines as they are read -/

/-- **What reading a line takes off an input**, and what it leaves: bytes up to the first
line feed and with it, or all of them if there is none. -/
def takeLine : List UInt8 → List UInt8 × List UInt8
  | [] => ([], [])
  | byte :: rest =>
    if byte = lineFeed then ([byte], rest) else (takeLine rest).map (byte :: ·) id

variable {input : List UInt8}

/-- It takes nothing at the end of the input only. -/
theorem isEmpty_takeLine (input : List UInt8) : (takeLine input).1.isEmpty = input.isEmpty := by
  cases input with
  | nil => rfl
  | cons byte rest =>
    rw [takeLine]
    split <;> rfl

/-- **What it takes is the first line**, and what it leaves holds the others. -/
theorem splitLines_eq_takeLine (h : input ≠ []) :
    splitLines input = (takeLine input).1 :: splitLines (takeLine input).2 := by
  induction input with
  | nil => exact absurd rfl h
  | cons byte rest ih =>
    rw [splitLines, takeLine]
    by_cases hbyte : byte = lineFeed
    · rw [if_pos hbyte, if_pos hbyte]
    · rw [if_neg hbyte, if_neg hbyte]
      cases rest with
      | nil => rfl
      | cons next rest =>
        rw [ih (List.cons_ne_nil next rest)]
        rfl

/-- **A session over an input goes on line by line.** It prompts and reads a line, and where
that does not end it, it prints its answer and goes on with what is left of the input. -/
theorem run_eq_turn (table : SymbolTable) (input : List UInt8) :
    run table ((splitLines input).map decode) =
      match turn table (takeLine input).1 with
      | .stop failed => ⟨[prompt], failed⟩
      | .goOn lines after =>
        (run after ((splitLines (takeLine input).2).map decode)).prepend (piece lines) := by
  by_cases hempty : input = []
  · subst hempty
    rfl
  · have hline : (takeLine input).1.isEmpty = false := by
      rw [isEmpty_takeLine, List.isEmpty_eq_false_iff]
      exact hempty
    rw [splitLines_eq_takeLine hempty, List.map_cons, turn, hline, if_neg Bool.false_ne_true]
    cases decode (takeLine input).1 with
    | none => rfl
    | some text =>
      rw [run]
      dsimp only
      cases step table text <;> rfl

end Session

end Calculator
