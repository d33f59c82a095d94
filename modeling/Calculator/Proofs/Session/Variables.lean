import Calculator.Proofs.Grammar.Reach
import Calculator.Proofs.Session.Builtins
import Calculator.Proofs.Text.LetterCase
/-!
# Variables over a session

The variables at a point of a session are those that the lines before it have
assigned to, each as it was spelled first and with the value it got last
(`Session.lists_assigned`). A line that is the name of a variable, in either case of
each letter, shows its value, until the next assignment to it succeeds
(`Session.step_recall`).
-/

namespace Calculator

open SymbolTable (key)

variable {table after later : SymbolTable} {line again name expression text word : String}
variable {lines between : List String} {value : Float}

/-! ## Identifiers -/

namespace Lexeme

/-- An identifier holds nothing but its parts. -/
theorem isIdentifierPart_of_mem {chars : List Char} (h : chars ∈ identifiers) :
    ∀ c ∈ chars, isIdentifierPart c := by
  obtain ⟨c, rest, rfl, hstart, hparts⟩ := h
  exact List.forall_mem_cons.2 ⟨isIdentifierPart_of_start hstart, hparts⟩

/-- It ends where a character stands that is none of them. -/
theorem dropWhile_append_of_mem {chars rest : List Char} (h : chars ∈ identifiers)
    (hrest : ∀ c ∈ rest.head?, isIdentifierPart c = false) :
    (chars ++ rest).dropWhile isIdentifierPart = rest := by
  have hnone : chars.dropWhile isIdentifierPart = [] :=
    List.dropWhile_eq_nil_iff.2 (isIdentifierPart_of_mem h)
  rw [dropWhile_append_of_stop _ hrest, hnone, List.nil_append]

/-- **The letters of an identifier may be of either case.** -/
theorem mem_identifiers_of_case (h : name.toList ∈ identifiers)
    (hcase : word.toLower = name.toLower) : word.toList ∈ identifiers := by
  have hstart := Text.apply_toLower isIdentifierStart (by decide)
  have hpart := Text.apply_toLower isIdentifierPart (by decide)
  obtain ⟨c, rest, hcons, hc, hrest⟩ := h
  have hsmall : word.toList.map Char.toLower = c.toLower :: rest.map Char.toLower := by
    rw [← Text.toList_toLower, hcase, Text.toList_toLower, hcons, List.map_cons]
  obtain ⟨d, others, hcons', hd, hothers⟩ := List.map_eq_cons_iff.1 hsmall
  refine ⟨d, others, hcons', ?_, fun e he => ?_⟩
  · rw [← hstart, hd, hstart]
    exact hc
  · have hmem : e.toLower ∈ rest.map Char.toLower := hothers ▸ List.mem_map_of_mem he
    obtain ⟨e', he', heq⟩ := List.mem_map.1 hmem
    rw [← hpart, ← heq, hpart]
    exact hrest e' he'

end Lexeme

/-! ## What is listed -/

namespace Session

/-- **What assignments tell of a name**: it is spelled as in the first of them that is
to it, and its value is that of the last. -/
def Remembers (made : List (String × Float)) (name : String) (value : Float) : Prop :=
  ∃ first last, made.find? (key ·.1 == key name) = some (name, first) ∧
    (made.filter (key ·.1 == key name)).getLast? = some (last, value)

/-- **A listing of the variables that were assigned to.** -/
structure Lists (made listed : List (String × Float)) : Prop where
  /-- The names increase strictly. -/
  increasing : listed.Pairwise (·.1 < ·.1)
  /-- No two of them are spellings of one name. -/
  distinct : (listed.map (key ·.1)).Nodup
  /-- A name is listed, in some spelling, if it was assigned to in one. -/
  mem_keys_iff : ∀ k, k ∈ listed.map (key ·.1) ↔ k ∈ made.map (key ·.1)
  /-- The spelling is the first one, and the value the last. -/
  mem_iff : ∀ name value, (name, value) ∈ listed ↔ Remembers made name value
  /-- None of them is that of a built-in function. -/
  not_builtin : ∀ binding ∈ listed, key binding.1 ∉ Builtins.names

variable {made : List (String × Float)}

/-- What is told of a name is told of one that was assigned to. -/
theorem Remembers.mem_keys (h : Remembers made name value) : key name ∈ made.map (key ·.1) := by
  obtain ⟨first, last, hfirst, -⟩ := h
  exact List.mem_map.2 ⟨(name, first), List.mem_of_find?_eq_some hfirst, rfl⟩

/-- Something is told of each name that was assigned to. -/
theorem exists_remembers {binding : String × Float} (h : binding ∈ made) :
    ∃ name value, key name = key binding.1 ∧ Remembers made name value := by
  cases hfirst : made.find? (key ·.1 == key binding.1) with
  | none => exact absurd (beq_self_eq_true _) (List.find?_eq_none.1 hfirst binding h)
  | some first =>
    have hkey : key first.1 = key binding.1 := by simpa using List.find?_some hfirst
    have hmem : binding ∈ made.filter (key ·.1 == key binding.1) := by simpa using h
    cases hlast : (made.filter (key ·.1 == key binding.1)).getLast? with
    | none =>
      rw [List.getLast?_eq_none_iff.1 hlast] at hmem
      cases hmem
    | some last =>
      refine ⟨first.1, last.2, hkey, first.2, last.1, ?_⟩
      rw [hkey]
      exact ⟨hfirst, hlast⟩

/-- A name of no built-in function is a variable as the assignments tell. -/
theorem symbol?_eq_ofBinding_iff (h : tableAfter Builtins.table lines = some table)
    (hname : key name ∉ Builtins.names) :
    table.symbol? name = some (.ofBinding (name, value)) ↔
      Remembers (assigned Builtins.table lines) name value := by
  have hnone := Builtins.not_isFor_of_not_mem hname
  have hfind : Builtins.calls.find? (·.isFor name) = none :=
    List.find?_eq_none.2 fun call hcall => by simp [hnone call hcall]
  have hfilter : Builtins.calls.filter (·.isFor name) = [] :=
    List.filter_eq_nil_iff.2 fun call hcall => by simp [hnone call hcall]
  rw [(grants_of_tableAfter h).symbol?_eq_some_iff, List.find?_append, List.filter_append, hfind,
    hfilter, Option.none_or, List.nil_append, List.find?_map, List.filter_map, List.getLast?_map]
  constructor
  · rintro ⟨_, _, hfirst, hlast, heq⟩
    obtain ⟨⟨spelling, first⟩, hfirst', rfl⟩ := Option.map_eq_some_iff.1 hfirst
    obtain ⟨⟨last, value'⟩, hlast', rfl⟩ := Option.map_eq_some_iff.1 hlast
    cases heq
    exact ⟨first, last, hfirst', hlast'⟩
  · rintro ⟨first, last, hfirst, hlast⟩
    exact ⟨_, _, Option.map_eq_some_iff.2 ⟨_, hfirst, rfl⟩,
      Option.map_eq_some_iff.2 ⟨_, hlast, rfl⟩, rfl⟩

/-- No assignment tells of the name of a built-in function. -/
theorem not_remembers_builtin (h : tableAfter Builtins.table lines = some table)
    (hname : key name ∈ Builtins.names) :
    ¬ Remembers (assigned Builtins.table lines) name value := by
  obtain ⟨operation, hmem⟩ := Builtins.mem_names_iff.1 hname
  intro hremembers
  obtain ⟨binding, hbinding, hkey⟩ := List.mem_map.1 hremembers.mem_keys
  exact (builtin_kept h hmem).2 binding hbinding hkey

/-- **What is listed at a point of a session** is what the assignments before it that
succeeded tell. -/
theorem lists_assigned (h : tableAfter Builtins.table lines = some table) :
    Lists (assigned Builtins.table lines) table.sortedVariables := by
  have hkeyed := (grants_of_tableAfter h).keyed
  have hmem (name : String) (value : Float) : (name, value) ∈ table.sortedVariables ↔
      Remembers (assigned Builtins.table lines) name value := by
    rw [hkeyed.mem_sortedVariables]
    by_cases hname : key name ∈ Builtins.names
    · refine iff_of_false (fun hvariable => ?_) (not_remembers_builtin h hname)
      obtain ⟨operation, hmem⟩ := Builtins.mem_names_iff.1 hname
      rw [(builtin_kept h hmem).1] at hvariable
      simp [Symbol.ofBinding] at hvariable
    · exact symbol?_eq_ofBinding_iff h hname
  refine ⟨hkeyed.sortedVariables_increasing, hkeyed.sortedVariables_distinct, fun k => ?_, hmem,
    fun binding hlisted hname => not_remembers_builtin h hname ((hmem _ _).1 hlisted)⟩
  constructor
  · intro hk
    obtain ⟨⟨name, value⟩, hlisted, rfl⟩ := List.mem_map.1 hk
    exact ((hmem name value).1 hlisted).mem_keys
  · intro hk
    obtain ⟨binding, hbinding, rfl⟩ := List.mem_map.1 hk
    obtain ⟨name, value, hkey, hremembers⟩ := exists_remembers hbinding
    exact List.mem_map.2 ⟨(name, value), (hmem name value).2 hremembers, hkey⟩

/-! ## What an assignment answers -/

/-- What a line that assigns does. -/
theorem step_of_assign (h : Command.ofLine? line = some (.assign name expression)) :
    step table line =
      match table.assign name expression with
      | .ok (value, after) => .answer [showBinding name value] after
      | .error error => .answer [showError error] table := by
  rw [step, h]
  rfl

/-- **A built-in function is never assigned to.** If the expression has a value, the error
is about the name. -/
theorem step_assign_builtin (h : tableAfter Builtins.table lines = some table)
    (hline : Command.ofLine? line = some (.assign name expression))
    (hname : key name ∈ Builtins.names) :
    ∃ error, step table line = .answer [showError error] table ∧
      (table.evaluate expression = .error error ∨ error = .symbol ⟨name, .var, .fn⟩) := by
  obtain ⟨operation, hmem⟩ := Builtins.mem_names_iff.1 hname
  rw [step_of_assign hline, SymbolTable.assign]
  cases table.evaluate expression with
  | error error => exact ⟨error, rfl, .inl rfl⟩
  | ok value =>
    have hbind : table.bind name value = .error ⟨name, .var, .fn⟩ := by
      rw [SymbolTable.bind, (builtin_kept h hmem).1]
    refine ⟨.symbol ⟨name, .var, .fn⟩, ?_, .inr rfl⟩
    rw [Except.bind, hbind]
    rfl

/-- What is shown of an identifier is never an error, which goes on with a colon. -/
theorem showError_ne_binding (hname : name.toList ∈ Lexeme.identifiers) (error : Error) :
    showError error ≠ name ++ " = " ++ text := by
  intro heq
  have hchars : "error".toList ++ ':' :: ' ' :: error.message.toList =
      name.toList ++ ' ' :: '=' :: ' ' :: text.toList := by
    simpa [showError] using congrArg String.toList heq
  -- Both begin with an identifier, and the next character tells them apart.
  have hafter := congrArg (List.dropWhile Lexeme.isIdentifierPart) hchars
  have hword : "error".toList ∈ Lexeme.identifiers :=
    ⟨'e', ['r', 'r', 'o', 'r'], rfl, by decide, by simp [Lexeme.isIdentifierPart]⟩
  rw [Lexeme.dropWhile_append_of_mem hword (by rintro _ ⟨⟩; rfl),
    Lexeme.dropWhile_append_of_mem hname (by rintro _ ⟨⟩; rfl)] at hafter
  cases hafter

/-- **What an assignment to an identifier answers** tells that it succeeded. -/
theorem exists_assign_of_step (hline : Command.ofLine? line = some (.assign name expression))
    (hname : name.toList ∈ Lexeme.identifiers)
    (h : step table line = .answer [name ++ " = " ++ text] after) :
    ∃ value, text = Number.text value ∧ table.bind name value = .ok after := by
  rw [step_of_assign hline] at h
  cases hassign : table.assign name expression with
  | error error =>
    rw [hassign] at h
    injection h with hshown
    injection hshown with hshown
    exact absurd hshown (showError_ne_binding hname error)
  | ok result =>
    rw [hassign] at h
    injection h with hshown hafter
    injection hshown with hshown
    obtain ⟨-, hbind⟩ := SymbolTable.assign_eq_ok_iff.1 hassign
    refine ⟨result.1, ?_, hafter ▸ hbind⟩
    rw [showBinding] at hshown
    exact (String.append_right_inj _).1 hshown.symm

end Session

/-! ## What a name alone answers -/

namespace Command

/-- The words that are commands where they stand first in a line. -/
def words : List String := leaveWords ++ [listWord, assignWord]

/-- A line that holds an identifier alone asks for its value. -/
theorem ofLine?_of_identifier (hword : word.toList ∈ Lexeme.identifiers)
    (hline : Text.trim line.toList = word.toList) (hnot : word ∉ words) :
    ofLine? line = some (.evaluate word) := by
  have hblank (c : Char) (hc : c ∈ word.toList) : Text.isBlank c = false :=
    Lexeme.not_isBlank_of_part (Lexeme.isIdentifierPart_of_mem hword c hc)
  have hsplit : Text.splitBlank? word.toList = none := by
    rw [Text.splitBlank?, List.dropWhile_eq_nil_iff.2 fun c hc => by simp [hblank c hc]]
  have hempty : word ≠ "" := by
    rintro rfl
    exact (Lexeme.IsWord.identifier hword).ne_nil rfl
  simp only [words, List.mem_append, List.mem_cons, List.not_mem_nil, or_false,
    not_or] at hnot
  obtain ⟨hleave, hlist, hassign⟩ := hnot
  simp [ofLine?, hline, firstWord, hsplit, hempty, hleave, hlist, hassign]

end Command

namespace SymbolTable

/-- A variable has the value that it was bound to. -/
theorem lookup_of_bind (h : table.bind name value = .ok after) :
    after.lookup name = some (.var value) := by
  unfold bind at h
  split at h
  · cases h
    rw [lookup, symbol?_insert, if_pos rfl]
    rfl
  · cases h
    rw [lookup, symbol?_insert, if_pos rfl]
    rfl
  · cases h

/-- An identifier has the value of its variable. -/
theorem evaluate_variable (hname : name.toList ∈ Lexeme.identifiers)
    (hlookup : table.lookup name = some (.var value)) : table.evaluate name = .ok value := by
  have hparse : parse table.context name = .ok (.var name) := parse_variable hname hlookup
  rw [SymbolTable.evaluate, Context.evaluate_of_parse_eq_ok hparse]
  simp [Expr.eval, Context.variable?, context, hlookup, Except.mapError]

/-- A literal has its own value. -/
theorem evaluate_literal (h : text.toList ∈ Literal.language) :
    table.evaluate text = .ok (Literal.valueOf text) := by
  have hparse : parse table.context (.ofList text.toList) = _ := parse_literal h
  rw [String.ofList_toList] at hparse
  rw [SymbolTable.evaluate, Context.evaluate_of_parse_eq_ok hparse]
  rfl

end SymbolTable

namespace Session

/-- **An assignment is recalled** by its name alone, until the next one to it succeeds. -/
theorem step_recall (hline : Command.ofLine? line = some (.assign name expression))
    (hname : name.toList ∈ Lexeme.identifiers)
    (hstep : step table line = .answer [name ++ " = " ++ text] after)
    (hbetween : tableAfter after between = some later)
    (hnone : ∀ binding ∈ assigned after between, key binding.1 ≠ key name)
    (hagain : Text.trim again.toList = word.toList) (hcase : word.toLower = name.toLower)
    (hnot : word ∉ Command.words) : step later again = .answer [text] later := by
  obtain ⟨value, rfl, hbind⟩ := exists_assign_of_step hline hname hstep
  have hword := Lexeme.mem_identifiers_of_case hname hcase
  have hkept : later.symbol? name = after.symbol? name := by
    refine (grants_assigned hbetween).symbol?_of_other fun call hcall => ?_
    obtain ⟨binding, hbinding, rfl⟩ := List.mem_map.1 hcall
    rw [Symbol.isFor_ofBinding, beq_eq_false_iff_ne]
    exact hnone binding hbinding
  have hlookup : later.lookup word = some (.var value) := by
    rw [← SymbolTable.lookup_toLower, hcase, SymbolTable.lookup_toLower, SymbolTable.lookup, hkept]
    exact SymbolTable.lookup_of_bind hbind
  rw [step, Command.ofLine?_of_identifier hword hagain hnot, respond,
    SymbolTable.evaluate_variable hword hlookup]

end Session

/-- **The variables of a session.** At each point that a session comes to, it goes on
from the table there, and prints what it answers behind its prompt, each line on its own;
each spelling of the name of a built-in function still finds that function, and a line
that assigns to one answers with an error. The variables are listed with their values, as
the assignments that succeeded before tell, and the order in which the symbols are
visited makes no difference to the list. An assignment to an identifier that is answered
by its value is recalled in later lines, in whatever case the identifier is spelled there,
until the next one to it succeeds. -/
theorem variables_over_session (lines : List String) (table : SymbolTable)
    (h : Session.tableAfter Builtins.table lines = some table) :
    (∃ pieces, pieces.length = lines.length ∧ ∀ rest : List (Option String),
      Session.run Builtins.table (lines.map some ++ rest) =
        (Session.run table rest).prependAll pieces) ∧
    (∀ line shown after, Session.step table line = .answer shown after →
      ∀ rest : List (Option String), Session.run table (some line :: rest) =
        (Session.run after rest).prepend ("> " ++ String.join (shown.map (· ++ "\n")))) ∧
    (∀ name operation, (key name, operation) ∈ Builtins.all →
      table.lookup name = some (.fn operation)) ∧
    (∀ line name expression, Command.ofLine? line = some (.assign name expression) →
      key name ∈ Builtins.names →
      ∃ error : Error, Session.step table line = .answer ["error: " ++ error.message] table ∧
        (table.evaluate expression = .error error ∨ error = .symbol ⟨name, .var, .fn⟩)) ∧
    (∀ line, Command.ofLine? line = some .listVariables →
      Session.step table line =
        .answer (table.sortedVariables.map fun (name, value) =>
          name ++ " = " ++ Number.text value) table) ∧
    Session.Lists (Session.assigned Builtins.table lines) table.sortedVariables ∧
    (∀ symbols : List Symbol, symbols.Perm table.toList →
      (symbols.filterMap Symbol.binding?).mergeSort (fun a b => a.1 ≤ b.1) =
        table.sortedVariables) ∧
    ∀ line name expression text after, Command.ofLine? line = some (.assign name expression) →
      name.toList ∈ Lexeme.identifiers →
      Session.step table line = .answer [name ++ " = " ++ text] after →
      ∀ between later, Session.tableAfter after between = some later →
        (∀ binding ∈ Session.assigned after between, key binding.1 ≠ key name) →
        ∀ again word, Text.trim again.toList = word.toList → word.toLower = name.toLower →
          word ∉ Command.words → Session.step later again = .answer [text] later := by
  refine ⟨Session.run_append h, fun line shown after hstep rest => ?_,
    fun name operation hmem => ?_, fun line name expression hline =>
    Session.step_assign_builtin h hline, fun line hline => ?_, Session.lists_assigned h,
    fun symbols hperm => (Session.grants_of_tableAfter h).keyed.sort_eq_of_perm hperm, ?_⟩
  · rw [Session.run, hstep]
    rfl
  · rw [SymbolTable.lookup, (Session.builtin_kept h hmem).1]
    rfl
  · rw [Session.step, hline]
    rfl
  · intro line name expression text after hline hname hstep between later hbetween hnone again word
    exact Session.step_recall hline hname hstep hbetween hnone

/-- After `Foo` is set it is listed, no spelling of a built-in function can be set, and
another spelling of `Foo` shows its value. -/
theorem variables_after_setting_foo :
    (Session.run Builtins.table
        [some "set Foo 2\n", some "set SIN 1\n", some "vars\n", some "fOO\n"]).pieces =
      ["> Foo = 2\n", "> error: `SIN` is a function, not a variable\n", "> Foo = 2\n", "> 2\n",
        "> "] ∧
    ∃ table, Session.tableAfter Builtins.table ["set Foo 2\n"] = some table ∧
      Session.step Builtins.table "set Foo 2\n" = .answer ["Foo = 2"] table ∧
      ("Foo", Literal.valueOf "2") ∈ table.sortedVariables ∧
      Session.step table "vars\n" = .answer ["Foo = 2"] table ∧
      (∃ error : Error, Session.step table "set SIN 1\n" =
        .answer ["error: " ++ error.message] table) ∧
      Session.step table "fOO\n" = .answer ["2"] table := by
  refine ⟨by decide +kernel, ?_⟩
  have hline : Command.ofLine? "set Foo 2\n" = some (.assign "Foo" "2") := by decide +kernel
  have hfoo : "Foo".toList ∈ Lexeme.identifiers :=
    ⟨'F', ['o', 'o'], rfl, by decide, by simp [Lexeme.isIdentifierPart]⟩
  have hcase : "fOO".toLower = "Foo".toLower := by cbv
  have hshown : (Session.tableAfter Builtins.table ["set Foo 2\n"]).map (fun table =>
      table.sortedVariables.map fun (name, value) => name ++ " = " ++ Number.text value) =
      some ["Foo = 2"] := by
    decide +kernel
  have htext : Number.text (Literal.valueOf "2") = "2" := by decide +kernel
  have hliteral : "2".toList ∈ Literal.language :=
    (Lexeme.isWord_of_read (by decide : Lexeme.read "2".toList = _) (by decide)).mem_language
  have hvalue : Builtins.table.evaluate "2" = .ok (Literal.valueOf "2") :=
    SymbolTable.evaluate_literal hliteral
  generalize Literal.valueOf "2" = value at hvalue htext ⊢
  have hnew : Builtins.table.symbol? "Foo" = none := by
    have hother := Builtins.not_isFor_of_not_mem (by decide +kernel : key "Foo" ∉ Builtins.names)
    rw [Builtins.grants_calls.symbol?_of_other hother, SymbolTable.symbol?_empty]
  obtain ⟨after, hbind⟩ : ∃ after, Builtins.table.bind "Foo" value = .ok after := by
    rw [SymbolTable.bind, hnew]
    exact ⟨_, rfl⟩
  have hassign := SymbolTable.assign_eq_ok_iff.2 ⟨hvalue, hbind⟩
  have hstep : Session.step Builtins.table "set Foo 2\n" =
      .answer ["Foo" ++ " = " ++ "2"] after := by
    rw [Session.step_of_assign hline, hassign, ← htext]
    rfl
  have hafter := Session.tableAfter_singleton hstep
  have hassigned : Session.assigned Builtins.table ["set Foo 2\n"] = [("Foo", value)] := by
    rw [Session.assigned, hstep, Session.assignment?, hline]
    simp only [hassign]
    rfl
  obtain ⟨-, -, -, hbuiltin, hvars, hlists, -, -⟩ :=
    variables_over_session ["set Foo 2\n"] after hafter
  obtain ⟨-, -, -, -, -, -, -, hrecall⟩ := variables_over_session [] Builtins.table rfl
  rw [hassigned] at hlists
  rw [hafter] at hshown
  refine ⟨after, hafter, hstep, (hlists.mem_iff _ _).2 ⟨value, "Foo", by simp, by simp⟩, ?_, ?_, ?_⟩
  · rw [hvars "vars\n" (by decide +kernel)]
    exact congrArg (Response.answer · after) (Option.some.inj hshown)
  · obtain ⟨error, herror, -⟩ :=
      hbuiltin "set SIN 1\n" "SIN" "1" (by decide +kernel) (by decide +kernel)
    exact ⟨error, herror⟩
  · have hrecalled := hrecall _ "Foo" "2" "2" after hline hfoo hstep [] after rfl
      (List.forall_mem_nil _)
    exact hrecalled "fOO\n" "fOO" (by decide +kernel) hcase (by decide +kernel)

end Calculator
