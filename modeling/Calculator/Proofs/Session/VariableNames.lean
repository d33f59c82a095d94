import Calculator.Proofs.Grammar.Extension
import Calculator.Proofs.Session.Command
import Calculator.Proofs.Session.Variables
/-!
# What variables are called

A line assigns to any word, and a table takes any name but that of a function
(`Session.exists_step_assign`). An expression, though, names variables by identifiers
only. So a variable is read back as one token if its name is an identifier
(`tokenize_eq_identifier_iff`), and some expression refers to it if the lower case of
its name is one (`SymbolTable.refersTo_iff`), which makes the difference for a letter
whose small form alone is of ASCII.
-/

namespace Calculator

open SymbolTable (key)

variable {name line expression : String} {lines : List String} {table after : SymbolTable}
variable {value : Float}

/-! ## Identifiers and their keys -/

namespace Lexeme

/-- An identifier is a text of ASCII. -/
theorem isAscii_of_mem {chars : List Char} (h : chars ∈ identifiers) :
    ∀ c ∈ chars, c.toNat < 0x80 := by
  intro c hc
  have hpart := isIdentifierPart_of_mem h c hc
  simp only [isIdentifierPart, Char.isAlphanum, Char.isAlpha, Char.isUpper, Char.isLower,
    Char.isDigit, ge_iff_le, Bool.or_eq_true, Bool.and_eq_true, decide_eq_true_eq, beq_iff_eq,
    UInt32.le_iff_toNat_le] at hpart
  change (((65 ≤ c.toNat ∧ c.toNat ≤ 90) ∨ (97 ≤ c.toNat ∧ c.toNat ≤ 122)) ∨
    (48 ≤ c.toNat ∧ c.toNat ≤ 57)) ∨ c = '_' at hpart
  rcases hpart with hpart | rfl
  · omega
  · decide

end Lexeme

namespace SymbolTable

/-- The key of an identifier is the identifier in small letters. -/
theorem key_of_identifier (h : name.toList ∈ Lexeme.identifiers) : key name = name.toLower :=
  Text.lowerCase_of_ascii (Lexeme.isAscii_of_mem h)

/-- It is an identifier of its own. -/
theorem key_mem_identifiers (h : name.toList ∈ Lexeme.identifiers) :
    (key name).toList ∈ Lexeme.identifiers := by
  refine Lexeme.mem_identifiers_of_case h ?_
  rw [key, Text.toLower_lowerCase, ← key, key_of_identifier h]

/-- A key that is an identifier is a spelling of the name. -/
theorem key_key (h : (key name).toList ∈ Lexeme.identifiers) : key (key name) = key name := by
  rw [key_of_identifier h, key, Text.toLower_lowerCase]

end SymbolTable

/-- **A text is read as one identifier**, from its first character to its last, if it
is one. -/
theorem tokenize_eq_identifier_iff :
    tokenize name = .ok [⟨.identifier, 0, name⟩, ⟨.endOfInput, name.length, ""⟩] ↔
      name.toList ∈ Lexeme.identifiers := by
  rw [tokenize_eq_ok_iff]
  constructor
  · rintro ⟨tokens, hscans, heq⟩
    obtain ⟨rfl, -⟩ := List.append_inj' (heq.symm.trans (List.singleton_append).symm) rfl
    exact (hscans.isWord _ (List.mem_singleton_self _)).mem_identifiers
  · intro h
    have hnothing : Scans (0 + name.toList.length) [] [] := .blanks nofun
    have hscans := hnothing.word (.identifier h) (.inr Lexeme.bounds_nil)
    rw [List.append_nil, String.ofList_toList] at hscans
    exact ⟨_, hscans, rfl⟩

/-! ## The names of a tree -/

namespace Expr

/-- The names of several trees are those of each. -/
theorem mem_namesAll {word : String} {trees : List Expr} :
    word ∈ namesAll trees ↔ ∃ tree ∈ trees, word ∈ tree.names := by
  induction trees with
  | nil => simp [namesAll]
  | cons first rest ih => simp [namesAll, ih]

/-- **The names of a tree that can be written are identifiers.** -/
theorem Writable.names_mem {tree : Expr} (h : tree.Writable) :
    ∀ word ∈ tree.names, word.toList ∈ Lexeme.identifiers := by
  induction h with
  | num _ => exact List.forall_mem_nil _
  | var hname => exact List.forall_mem_singleton.2 hname
  | call hname _ ih =>
    refine List.forall_mem_cons.2 ⟨hname, fun word hword => ?_⟩
    obtain ⟨argument, hargument, hword⟩ := mem_namesAll.1 hword
    exact ih argument hargument word hword
  | neg _ ih | fact _ ih => exact ih
  | binary _ _ ihl ihr => exact List.forall_mem_append.2 ⟨ihl, ihr⟩

end Expr

namespace SymbolTable

/-- **Some expression refers to the name**: it is parsed as a tree that holds the name
in one of its spellings. -/
def RefersTo (table : SymbolTable) (name : String) : Prop :=
  ∃ source tree, parse table.context source = .ok tree ∧ ∃ word ∈ tree.names, key word = key name

/-- **An expression refers to a variable if the key of its name is an identifier**, and
only then. -/
theorem refersTo_iff (h : table.lookup name = some (.var value)) :
    table.RefersTo name ↔ (key name).toList ∈ Lexeme.identifiers := by
  constructor
  · rintro ⟨source, tree, hparse, word, hword, hkey⟩
    rw [← hkey]
    exact key_mem_identifiers ((writable_of_parse hparse).names_mem word hword)
  · intro hmem
    have hlookup : table.context.lookup (key name) = some (.var value) := by
      show table.lookup (key name) = _
      rw [lookup, symbol?, key_key hmem]
      exact h
    exact ⟨key name, .var (key name), parse_variable hmem hlookup, key name,
      List.mem_singleton_self _, key_key hmem⟩

end SymbolTable

/-! ## Names that a line assigns to -/

namespace Command

/-- The line that assigns an expression to a name. -/
def assignLine (name expression : String) : String :=
  assignWord ++ " " ++ name ++ " " ++ expression

/-- **It does so whatever word the name is.** -/
theorem Proper.ofLine?_assignLine (h : Proper name expression) :
    ofLine? (assignLine name expression) = some (.assign name expression) := by
  have hchars {text : String} (hne : text ≠ "") : text.toList ≠ [] := fun hnil =>
    hne (String.toList_inj.1 hnil)
  have hset : ∀ c ∈ assignWord.toList, Text.isBlank c = false :=
    List.forall_mem_cons.2 ⟨rfl, List.forall_mem_cons.2 ⟨rfl, List.forall_mem_singleton.2 rfl⟩⟩
  have hgap : ∀ c ∈ [' '], Text.isBlank c := List.forall_mem_singleton.2 rfl
  have hgapne : [' '] ≠ [] := List.cons_ne_nil _ _
  have hrest : Text.Tight (name.toList ++ [' '] ++ expression.toList) :=
    h.expression_tight.behind_word (hchars h.name_ne) h.name_word (hchars h.expression_ne)
  have hline : Text.trim (assignLine name expression).toList =
      assignWord.toList ++ [' '] ++ (name.toList ++ [' '] ++ expression.toList) := by
    rw [← (hrest.behind_word (by decide) hset (by simp)).trim_eq]
    simp [assignLine]
  rw [ofLine?_of_gap hline (by decide) hset hgapne hgap (by simp) hrest, String.ofList_toList,
    if_pos rfl, ofAssignment?_of_gap h.name_word hgapne hgap (hchars h.expression_ne)
      h.expression_tight, String.ofList_toList, String.ofList_toList]

end Command

namespace Session

/-- The names that were assigned to are words. -/
theorem proper_of_mem_assigned {binding : String × Float}
    (h : tableAfter table lines = some after) (hmem : binding ∈ assigned table lines) :
    ∃ expression, Command.Proper binding.1 expression := by
  induction lines generalizing table with
  | nil => cases hmem
  | cons line lines ih =>
    obtain ⟨shown, next, -, hrest, hassigned⟩ := tableAfter_cons h
    rw [hassigned, List.mem_append] at hmem
    rcases hmem with hmem | hmem
    · rw [Option.mem_toList, assignment?] at hmem
      split at hmem
      · rename_i name expression hline
        obtain ⟨-, -, rfl⟩ := Option.map_eq_some_iff.1 hmem
        exact ⟨expression, Command.proper_of_assign hline⟩
      · cases hmem
    · exact ih hrest hmem

/-- So are those that are listed. -/
theorem proper_of_listed (h : tableAfter Builtins.table lines = some table)
    (hlisted : (name, value) ∈ table.sortedVariables) :
    ∃ expression, Command.Proper name expression := by
  obtain ⟨first, -, hfirst, -⟩ := ((lists_assigned h).mem_iff name value).1 hlisted
  exact proper_of_mem_assigned h (List.mem_of_find?_eq_some hfirst)

/-- A name that is listed is a variable. -/
theorem lookup_of_listed (h : tableAfter Builtins.table lines = some table)
    (hlisted : (name, value) ∈ table.sortedVariables) : table.lookup name = some (.var value) := by
  rw [SymbolTable.lookup, (grants_of_tableAfter h).keyed.mem_sortedVariables.1 hlisted]
  rfl

/-- A name of no built-in function is no function. -/
theorem kind_of_not_builtin {symbol : Symbol} (h : tableAfter Builtins.table lines = some table)
    (hname : key name ∉ Builtins.names) (hsymbol : table.symbol? name = some symbol) :
    symbol.meaning.kind = .var := by
  obtain ⟨first, last, -, hlast, rfl⟩ := (grants_of_tableAfter h).symbol?_eq_some_iff.1 hsymbol
  obtain ⟨hmem, hfor⟩ := List.mem_filter.1 (List.mem_of_getLast? hlast)
  rw [SymbolTable.kind_updated]
  rcases List.mem_append.1 hmem with hmem | hmem
  · rw [Builtins.not_isFor_of_not_mem hname last hmem] at hfor
    cases hfor
  · obtain ⟨binding, -, rfl⟩ := List.mem_map.1 hmem
    rfl

/-- **A session refuses no other name** a value. -/
theorem exists_bind (h : tableAfter Builtins.table lines = some table)
    (hname : key name ∉ Builtins.names) (value : Float) :
    ∃ after, table.bind name value = .ok after := by
  unfold SymbolTable.bind
  split
  · exact ⟨_, rfl⟩
  · exact ⟨_, rfl⟩
  · rename_i spelling operation hsymbol
    cases kind_of_not_builtin h hname hsymbol

/-- **So a line that assigns to it succeeds**, if its expression has a value. -/
theorem exists_step_assign (h : tableAfter Builtins.table lines = some table)
    (hline : Command.ofLine? line = some (.assign name expression))
    (hname : key name ∉ Builtins.names) (hvalue : table.evaluate expression = .ok value) :
    ∃ after, step table line = .answer [showBinding name value] after ∧
      after.lookup name = some (.var value) := by
  obtain ⟨after, hbind⟩ := exists_bind h hname value
  refine ⟨after, ?_, SymbolTable.lookup_of_bind hbind⟩
  rw [step_of_assign hline, SymbolTable.assign_eq_ok_iff.2 ⟨hvalue, hbind⟩]

/-- A session that lists one name after a line lists it with a value. -/
theorem exists_listed (lines : List String) (name : String)
    (h : (tableAfter Builtins.table lines).map (·.sortedVariables.map Prod.fst) = some [name]) :
    ∃ table value, tableAfter Builtins.table lines = some table ∧
      (name, value) ∈ table.sortedVariables := by
  obtain ⟨table, htable, hnames⟩ := Option.map_eq_some_iff.1 h
  have hmem : name ∈ table.sortedVariables.map Prod.fst := by simp [hnames]
  obtain ⟨⟨_, value⟩, hlisted, rfl⟩ := List.mem_map.1 hmem
  exact ⟨table, value, htable, hlisted⟩

end Session

/-- **No expression refers to a variable that has an accented letter for its name.** A
line gives it a value, and it is listed, but the letter begins no token. -/
theorem accented_variable_out_of_reach :
    (Session.run Builtins.table [some "set é 5\n", some "é\n"]).pieces =
      ["> é = 5\n", "> error: unrecognized character `é` at position 0\n", "> "] ∧
    ∃ table value, Session.tableAfter Builtins.table ["set é 5\n"] = some table ∧
      ("é", value) ∈ table.sortedVariables ∧
      tokenize "é" = .error ⟨.unrecognized 'é', 0, 1⟩ ∧ ¬ table.RefersTo "é" := by
  obtain ⟨table, value, htable, hlisted⟩ :=
    Session.exists_listed ["set é 5\n"] "é" (by decide +kernel)
  refine ⟨by decide +kernel, table, value, htable, hlisted, by decide +kernel, ?_⟩
  rw [SymbolTable.refersTo_iff (Session.lookup_of_listed htable hlisted)]
  intro hmem
  have hascii := Lexeme.isAscii_of_mem hmem 'é' (by decide +kernel)
  exact absurd hascii (by decide)

/-- **What variables are called, and which of them can be referred to.** At each point
that a session comes to, the variables listed are called by words. Such a name is read
as one identifier, from its first character to its last, if it is one and only then, and
its value is what it evaluates to. Some expression refers to the variable if the lower
case of the name is an identifier, and only then. Lines assign to every word and to
nothing else. If the word is the name of no built-in function and the expression has a
value, the line answers with it, however it is laid out; what it binds can be referred to
if the lower case of the word is an identifier, and only then. -/
theorem variables_named_by_words (lines : List String) (table : SymbolTable)
    (h : Session.tableAfter Builtins.table lines = some table) :
    (∀ name value, (name, value) ∈ table.sortedVariables →
      (name ≠ "" ∧ ∀ c ∈ name.toList, Text.isBlank c = false) ∧
      (tokenize name = .ok [⟨.identifier, 0, name⟩, ⟨.endOfInput, name.length, ""⟩] ↔
        name.toList ∈ Lexeme.identifiers) ∧
      (name.toList ∈ Lexeme.identifiers → table.evaluate name = .ok value) ∧
      (table.RefersTo name ↔ (key name).toList ∈ Lexeme.identifiers)) ∧
    (∀ name expression, (∃ line, Command.ofLine? line = some (.assign name expression)) ↔
      Command.Proper name expression) ∧
    ∀ line name expression value, Command.ofLine? line = some (.assign name expression) →
      key name ∉ Builtins.names → table.evaluate expression = .ok value →
      ∃ after, Session.step table line = .answer [name ++ " = " ++ Number.text value] after ∧
        after.lookup name = some (.var value) ∧
        (after.RefersTo name ↔ (key name).toList ∈ Lexeme.identifiers) := by
  refine ⟨fun name value hlisted => ?_, fun name expression => ?_,
    fun line name expression value hline hname hvalue => ?_⟩
  · obtain ⟨expression, hproper⟩ := Session.proper_of_listed h hlisted
    have hlookup := Session.lookup_of_listed h hlisted
    exact ⟨⟨hproper.name_ne, hproper.name_word⟩, tokenize_eq_identifier_iff,
      fun hmem => SymbolTable.evaluate_variable hmem hlookup, SymbolTable.refersTo_iff hlookup⟩
  · constructor
    · rintro ⟨line, hline⟩
      exact Command.proper_of_assign hline
    · intro hproper
      exact ⟨_, hproper.ofLine?_assignLine⟩
  · obtain ⟨after, hstep, hlookup⟩ := Session.exists_step_assign h hline hname hvalue
    exact ⟨after, hstep, hlookup, SymbolTable.refersTo_iff hlookup⟩

/-- A variable that is called by the sign of a unit is not read back, but the small
letter of that sign refers to it. -/
theorem kelvin_variable_within_reach :
    ∃ table value,
      Session.step Builtins.table "set \u212a 3\n" = .answer ["\u212a = 3"] table ∧
      Session.tableAfter Builtins.table ["set \u212a 3\n"] = some table ∧
      ("\u212a", value) ∈ table.sortedVariables ∧ "\u212a".toList ∉ Lexeme.identifiers ∧
      tokenize "\u212a" ≠ .ok [⟨.identifier, 0, "\u212a"⟩, ⟨.endOfInput, 1, ""⟩] ∧
      (key "\u212a").toList ∈ Lexeme.identifiers ∧ table.RefersTo "\u212a" := by
  obtain ⟨table, value, htable, hlisted⟩ :=
    Session.exists_listed ["set \u212a 3\n"] "\u212a" (by decide +kernel)
  obtain ⟨hvariables, -, -⟩ := variables_named_by_words ["set \u212a 3\n"] table htable
  obtain ⟨-, -, hassigns⟩ := variables_named_by_words [] Builtins.table rfl
  obtain ⟨-, hreads, -, hrefers⟩ := hvariables "\u212a" value hlisted
  have hsign : "\u212a".toList ∉ Lexeme.identifiers := fun hmem =>
    absurd (Lexeme.isAscii_of_mem hmem '\u212a' (by decide +kernel)) (by decide)
  have hkey : key "\u212a" = "k" := by decide +kernel
  have hletter : (key "\u212a").toList ∈ Lexeme.identifiers := by
    rw [hkey]
    exact ⟨'k', [], rfl, by decide, List.forall_mem_nil _⟩
  have hliteral : "3".toList ∈ Literal.language :=
    (Lexeme.isWord_of_read (by decide : Lexeme.read "3".toList = _) (by decide)).mem_language
  have htext : Number.text (Literal.valueOf "3") = "3" := by decide +kernel
  have hthree : Builtins.table.evaluate "3" = .ok (Literal.valueOf "3") :=
    SymbolTable.evaluate_literal hliteral
  generalize Literal.valueOf "3" = three at hthree htext
  obtain ⟨after, hstep, -, -⟩ := hassigns "set \u212a 3\n" "\u212a" "3" three (by decide +kernel)
    (by decide +kernel) hthree
  obtain rfl : after = table :=
    Option.some.inj ((Session.tableAfter_singleton hstep).symm.trans htable)
  rw [htext] at hstep
  exact ⟨after, value, hstep, htable, hlisted, hsign, fun h => hsign (hreads.1 h), hletter,
    hrefers.2 hletter⟩

end Calculator
