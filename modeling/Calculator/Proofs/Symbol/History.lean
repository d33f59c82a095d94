import Mathlib
import Calculator.Proofs.Symbol.Update
/-!
# Tables and their histories

A table that was empty is determined by the calls made on it since. Each call
asks for a symbol, a variable or a function, and the first one for a name
settles which of them the name is (`SymbolTable.define_eq`). What the table
holds then can be told from the calls alone: of a variable its first spelling
and its last value, of a function its last registration
(`SymbolTable.Recalls.ofHistory`). Names are told apart by their keys
throughout, and so is what the table lists (`SymbolTable.Keyed.keys_toList`).
-/

namespace Calculator

/-- The symbol is one of this name, in whatever case it is spelled. -/
def Symbol.isFor (name : String) (symbol : Symbol) : Bool :=
  SymbolTable.key symbol.name == SymbolTable.key name

/-- **What becomes of a symbol** when another of its kind is asked for in its
place: a variable is still listed as it was, a function as it is asked for now. -/
def Symbol.updated (old asked : Symbol) : Symbol :=
  match asked.meaning with
  | .var _ => ⟨old.name, asked.meaning⟩
  | .fn _ => asked

namespace SymbolTable

/-! ## Calls -/

/-- **Asks for a symbol**: a variable is bound, and a function is registered. -/
def define (table : SymbolTable) (call : Symbol) : Except SymbolError SymbolTable :=
  match call.meaning with
  | .var value => table.bind call.name value
  | .fn operation => table.register call.name operation

/-- The table after a call, which is the same if the call fails. -/
def afterCall (table : SymbolTable) (call : Symbol) : SymbolTable :=
  (table.define call).toOption.getD table

/-- **The table that calls leave** of one that was empty. -/
def ofHistory (calls : List Symbol) : SymbolTable := calls.foldl afterCall empty

/-- The calls that succeed, of those made on a table in turn. -/
def granted (table : SymbolTable) : List Symbol → List Symbol
  | [] => []
  | call :: later =>
    match table.define call with
    | .ok after => call :: after.granted later
    | .error _ => table.granted later

variable {table after : SymbolTable} {call old first last symbol : Symbol} {name : String}
variable {calls past : List Symbol}

/-- The symbol of a name is that of each spelling of it. -/
theorem symbol?_eq_of_isFor (h : symbol.isFor name) :
    table.symbol? symbol.name = table.symbol? name := by
  rw [symbol?, symbol?, eq_of_beq h]

/-- An update keeps the kind that was asked for. -/
theorem kind_updated (old asked : Symbol) :
    (old.updated asked).meaning.kind = asked.meaning.kind := by
  unfold Symbol.updated
  split <;> rfl

theorem updated_self (asked : Symbol) : asked.updated asked = asked := by
  unfold Symbol.updated
  split <;> rfl

/-- A later update of the same kind makes an earlier one as if it had not been. -/
theorem updated_updated (h : last.meaning.kind = call.meaning.kind) :
    (first.updated last).updated call = first.updated call := by
  unfold Symbol.updated
  cases hlast : last.meaning with
  | var value => rfl
  | fn operation =>
    cases hcall : call.meaning with
    | var value =>
      rw [hlast, hcall] at h
      cases h
    | fn operation' => rfl

/-- **What a call does** depends on what its name stands for: nothing yet,
something of the kind that is asked for, or something of the other kind. -/
theorem define_eq (table : SymbolTable) (call : Symbol) :
    table.define call =
      match table.symbol? call.name with
      | none => .ok (table.insert call.name call)
      | some old =>
        if old.meaning.kind = call.meaning.kind then
          .ok (table.insert call.name (old.updated call))
        else .error ⟨call.name, call.meaning.kind, old.meaning.kind⟩ := by
  obtain ⟨name, value | operation⟩ := call
  · cases h : table.symbol? name with
    | none => simp [define, bind, h]
    | some old =>
      obtain ⟨spelling, value' | operation⟩ := old
      · simp [define, bind, h, Meaning.kind, Symbol.updated]
      · simp [define, bind, h, Meaning.kind]
  · cases h : table.symbol? name with
    | none => simp [define, register, h]
    | some old =>
      obtain ⟨spelling, value | operation'⟩ := old
      · simp [define, register, h, Meaning.kind]
      · simp [define, register, h, Meaning.kind, Symbol.updated]

/-- A call for a name that stands for nothing succeeds. -/
theorem define_of_none (h : table.symbol? call.name = none) :
    table.define call = .ok (table.insert call.name call) := by
  rw [define_eq, h]

/-- So does one for the kind that the name has. -/
theorem define_of_eq (h : table.symbol? call.name = some old)
    (hkind : old.meaning.kind = call.meaning.kind) :
    table.define call = .ok (table.insert call.name (old.updated call)) := by
  rw [define_eq, h]
  exact if_pos hkind

/-- **One for the other kind fails.** -/
theorem define_of_ne (h : table.symbol? call.name = some old)
    (hkind : old.meaning.kind ≠ call.meaning.kind) :
    table.define call = .error ⟨call.name, call.meaning.kind, old.meaning.kind⟩ := by
  rw [define_eq, h]
  exact if_neg hkind

/-- A call that fails leaves the table as it was. -/
theorem afterCall_of_error {error : SymbolError} (h : table.define call = .error error) :
    table.afterCall call = table := by
  rw [afterCall, h]
  rfl

/-- A call that succeeds leaves the table it makes. -/
theorem afterCall_of_ok (h : table.define call = .ok after) : table.afterCall call = after := by
  rw [afterCall, h]
  rfl

/-- **A call writes the symbol of its own name only.** -/
theorem symbol?_afterCall_of_other (h : call.isFor name = false) :
    (table.afterCall call).symbol? name = table.symbol? name := by
  have hkey : key call.name ≠ key name := by simpa [Symbol.isFor] using h
  cases hdefine : table.define call with
  | error error => rw [afterCall_of_error hdefine]
  | ok after =>
    rw [afterCall_of_ok hdefine]
    rw [define_eq] at hdefine
    split at hdefine
    · cases hdefine
      rw [symbol?_insert, if_neg hkey]
    · split at hdefine
      · cases hdefine
        rw [symbol?_insert, if_neg hkey]
      · cases hdefine

/-! ## Histories -/

theorem ofHistory_concat (past : List Symbol) (call : Symbol) :
    ofHistory (past ++ [call]) = (ofHistory past).afterCall call := by
  rw [ofHistory, List.foldl_append]
  rfl

/-- Calls succeed on the table that those before them leave. -/
theorem granted_append (table : SymbolTable) (past later : List Symbol) :
    table.granted (past ++ later) =
      table.granted past ++ (past.foldl afterCall table).granted later := by
  induction past generalizing table with
  | nil => rfl
  | cons call past ih =>
    rw [List.cons_append, granted, granted, List.foldl_cons]
    cases h : table.define call with
    | ok after =>
      rw [afterCall_of_ok h]
      exact congrArg _ (ih after)
    | error error =>
      rw [afterCall_of_error h]
      exact ih table

/-- A call that succeeds is granted after those before it. -/
theorem granted_concat_of_ok (h : (ofHistory past).define call = .ok after) :
    empty.granted (past ++ [call]) = empty.granted past ++ [call] := by
  rw [granted_append, ← ofHistory, granted, h]
  rfl

/-- One that fails is not. -/
theorem granted_concat_of_error {error : SymbolError}
    (h : (ofHistory past).define call = .error error) :
    empty.granted (past ++ [call]) = empty.granted past := by
  rw [granted_append, ← ofHistory, granted, h]
  exact List.append_nil _

/-- **What a history tells of a name.** Either no call was for it, or its
first call and the last that succeeded are known, and they are of one kind. -/
inductive Recalls (calls : List Symbol) (name : String) : Option Symbol → Prop
  | nothing : calls.find? (·.isFor name) = none → Recalls calls name none
  | symbol {first last : Symbol} : calls.find? (·.isFor name) = some first →
      ((empty.granted calls).filter (·.isFor name)).getLast? = some last →
      first.meaning.kind = last.meaning.kind → Recalls calls name (some (first.updated last))

/-- A name that no call was for stands for nothing. -/
theorem Recalls.eq_none {found : Option Symbol} (h : Recalls calls name found)
    (hnone : calls.find? (·.isFor name) = none) : found = none := by
  cases h with
  | nothing => rfl
  | symbol hfirst =>
    rw [hnone] at hfirst
    cases hfirst

/-- **Any other stands for something of the kind of its first call.** -/
theorem Recalls.exists_symbol {found : Option Symbol} (h : Recalls calls name found)
    (hfirst : calls.find? (·.isFor name) = some first) :
    ∃ old, found = some old ∧ old.meaning.kind = first.meaning.kind := by
  cases h with
  | nothing hnone =>
    rw [hnone] at hfirst
    cases hfirst
  | symbol hfirst' _ hkind =>
    rw [hfirst] at hfirst'
    cases hfirst'
    exact ⟨_, rfl, by rw [kind_updated, hkind]⟩

/-- **A call for another name changes nothing of what is told.** -/
theorem Recalls.concat_of_other {found : Option Symbol} (h : Recalls past name found)
    (hother : call.isFor name = false) : Recalls (past ++ [call]) name found := by
  have hfind : (past ++ [call]).find? (·.isFor name) = past.find? (·.isFor name) := by
    simp [List.find?_append, hother]
  have hgranted : (empty.granted (past ++ [call])).filter (·.isFor name) =
      (empty.granted past).filter (·.isFor name) := by
    cases hdefine : (ofHistory past).define call with
    | ok after => simp [granted_concat_of_ok hdefine, hother]
    | error error => rw [granted_concat_of_error hdefine]
  cases h with
  | nothing hnone => exact .nothing (hfind.trans hnone)
  | symbol hfirst hlast hkind =>
    exact .symbol (hfind.trans hfirst) (by rw [hgranted, hlast]) hkind

/-- **A call for the name updates what is told**, if it succeeds. -/
theorem Recalls.concat_of_ok {found : Option Symbol} (h : Recalls past name found)
    (hcall : call.isFor name) (hok : (ofHistory past).define call = .ok after)
    (hkind : ∀ old ∈ found, old.meaning.kind = call.meaning.kind) :
    Recalls (past ++ [call]) name (some ((found.getD call).updated call)) := by
  have hlast : ((empty.granted (past ++ [call])).filter (·.isFor name)).getLast? = some call := by
    simp [granted_concat_of_ok hok, hcall]
  cases h with
  | nothing hnone =>
    have hfirst : (past ++ [call]).find? (·.isFor name) = some call := by
      simp [List.find?_append, hnone, hcall]
    exact .symbol hfirst hlast rfl
  | @symbol first last hfirst _ hsame =>
    have hupdated := hkind _ rfl
    rw [kind_updated] at hupdated
    have hfirst' : (past ++ [call]).find? (·.isFor name) = some first := by
      simp [List.find?_append, hfirst]
    rw [Option.getD_some, updated_updated hupdated]
    exact .symbol hfirst' hlast (hsame.trans hupdated)

/-- One that fails does not. -/
theorem Recalls.concat_of_error {error : SymbolError} (h : Recalls past name (some old))
    (herror : (ofHistory past).define call = .error error) :
    Recalls (past ++ [call]) name (some old) := by
  cases h with
  | @symbol first last hfirst hlast hkind =>
    have hfirst' : (past ++ [call]).find? (·.isFor name) = some first := by
      simp [List.find?_append, hfirst]
    exact .symbol hfirst' (by rw [granted_concat_of_error herror, hlast]) hkind

/-- **A table holds what its history tells.** -/
theorem Recalls.ofHistory (calls : List Symbol) (name : String) :
    Recalls calls name ((ofHistory calls).symbol? name) := by
  -- From the first call on: a call writes the symbol of its own name or none at all.
  induction calls using List.reverseRecOn with
  | nil => exact .nothing rfl
  | append_singleton past call ih =>
    rw [ofHistory_concat]
    cases hfor : call.isFor name with
    | false =>
      rw [symbol?_afterCall_of_other hfor]
      exact ih.concat_of_other hfor
    | true =>
      rw [← symbol?_eq_of_isFor hfor] at ih ⊢
      cases hsymbol : (SymbolTable.ofHistory past).symbol? call.name with
      | none =>
        have hdefine := define_of_none hsymbol
        rw [hsymbol] at ih
        rw [afterCall_of_ok hdefine, symbol?_insert, if_pos rfl]
        have hsame := ih.concat_of_ok hfor hdefine (by simp)
        rwa [Option.getD_none, updated_self] at hsame
      | some old =>
        rw [hsymbol] at ih
        by_cases hkind : old.meaning.kind = call.meaning.kind
        · have hdefine := define_of_eq hsymbol hkind
          rw [afterCall_of_ok hdefine, symbol?_insert, if_pos rfl]
          exact ih.concat_of_ok hfor hdefine (by simpa using hkind)
        · have hdefine := define_of_ne hsymbol hkind
          rw [afterCall_of_error hdefine, hsymbol]
          exact ih.concat_of_error hdefine

/-- **The first call for a name succeeds.** -/
theorem define_of_first (hnone : calls.find? (·.isFor call.name) = none) :
    ∃ after, (ofHistory calls).define call = .ok after :=
  ⟨_, define_of_none ((Recalls.ofHistory calls call.name).eq_none hnone)⟩

/-- **A later one succeeds if it asks for the kind that the first settled.** -/
theorem define_of_later (hfirst : calls.find? (·.isFor call.name) = some first)
    (hkind : call.meaning.kind = first.meaning.kind) :
    ∃ after, (ofHistory calls).define call = .ok after := by
  obtain ⟨old, hold, hsame⟩ := (Recalls.ofHistory calls call.name).exists_symbol hfirst
  exact ⟨_, define_of_eq hold (hsame.trans hkind.symm)⟩

/-- **Otherwise it fails**, naming the kind it asks for and the one there is. -/
theorem define_of_later_ne (hfirst : calls.find? (·.isFor call.name) = some first)
    (hkind : call.meaning.kind ≠ first.meaning.kind) :
    (ofHistory calls).define call =
      .error ⟨call.name, call.meaning.kind, first.meaning.kind⟩ := by
  obtain ⟨old, hold, hsame⟩ := (Recalls.ofHistory calls call.name).exists_symbol hfirst
  rw [define_of_ne hold fun heq => hkind (heq.symm.trans hsame), hsame]

/-! ## What a table lists -/

/-- **Each symbol is kept under the key of its name.** -/
def Keyed (table : SymbolTable) : Prop :=
  ∀ k symbol, table.symbols[k]? = some symbol → key symbol.name = k

theorem keyed_empty : empty.Keyed := by
  intro k symbol h
  simp [empty] at h

/-- A symbol may be put under the key of its name. -/
theorem Keyed.insert (h : table.Keyed) (hname : key symbol.name = key name) :
    (table.insert name symbol).Keyed := by
  intro k other hother
  rw [SymbolTable.insert, Std.TreeMap.getElem?_insert] at hother
  split at hother
  · rename_i hkey
    cases hother
    exact hname.trans (Std.compare_eq_iff_eq.1 hkey)
  · exact h k other hother

/-- The name of an updated symbol has the key that both names had. -/
theorem key_updated (h : key old.name = key call.name) :
    key (old.updated call).name = key call.name := by
  unfold Symbol.updated
  split
  · exact h
  · rfl

/-- No call puts a symbol elsewhere. -/
theorem Keyed.afterCall (h : table.Keyed) (call : Symbol) : (table.afterCall call).Keyed := by
  cases hdefine : table.define call with
  | error error => rwa [afterCall_of_error hdefine]
  | ok after =>
    rw [afterCall_of_ok hdefine]
    rw [define_eq] at hdefine
    split at hdefine
    · cases hdefine
      exact h.insert rfl
    · rename_i old hold
      split at hdefine
      · cases hdefine
        exact h.insert (key_updated (h _ old hold))
      · cases hdefine

/-- **So it stays along every history.** -/
theorem keyed_ofHistory (calls : List Symbol) : (ofHistory calls).Keyed := by
  induction calls using List.reverseRecOn with
  | nil => exact keyed_empty
  | append_singleton past call ih =>
    rw [ofHistory_concat]
    exact ih.afterCall call

/-- The keys of what is listed are those of the table. -/
theorem Keyed.keys_toList (h : table.Keyed) :
    table.toList.map (key ·.name) = table.symbols.keys := by
  rw [toList, List.map_map, ← Std.TreeMap.map_fst_toList_eq_keys]
  refine List.map_congr_left fun entry hentry => ?_
  exact h entry.1 entry.2 (Std.TreeMap.mem_toList_iff_getElem?_eq_some.1 hentry)

/-- **No two symbols that are listed have one key.** -/
theorem Keyed.nodup_keys (h : table.Keyed) : (table.toList.map (key ·.name)).Nodup := by
  rw [h.keys_toList]
  refine Std.TreeMap.distinct_keys.imp fun hne heq => hne ?_
  exact Std.compare_eq_iff_eq.2 heq

/-- What is listed is what is looked up. -/
theorem Keyed.mem_toList (h : table.Keyed) :
    symbol ∈ table.toList ↔ table.symbol? symbol.name = some symbol := by
  rw [toList, List.mem_map]
  constructor
  · rintro ⟨⟨k, other⟩, hmem, rfl⟩
    have hother := Std.TreeMap.mem_toList_iff_getElem?_eq_some.1 hmem
    rwa [symbol?, h k other hother]
  · intro hsymbol
    exact ⟨(key symbol.name, symbol), Std.TreeMap.mem_toList_iff_getElem?_eq_some.2 hsymbol, rfl⟩

/-- **The symbol of a name is the one that is listed under its key.** -/
theorem Keyed.find?_toList (h : table.Keyed) (name : String) :
    table.toList.find? (·.isFor name) = table.symbol? name := by
  cases hfind : table.toList.find? (·.isFor name) with
  | some symbol =>
    have hfor : symbol.isFor name := by simpa using List.find?_some hfind
    rw [← symbol?_eq_of_isFor hfor]
    exact (h.mem_toList.1 (List.mem_of_find?_eq_some hfind)).symm
  | none =>
    cases hsymbol : table.symbol? name with
    | none => rfl
    | some symbol =>
      have hkey : key symbol.name = key name := h _ symbol hsymbol
      have hfor : symbol.isFor name := beq_of_eq hkey
      have hlisted : symbol ∈ table.toList := by
        rw [h.mem_toList, symbol?_eq_of_isFor hfor, hsymbol]
      exact absurd hfor (List.find?_eq_none.1 hfind symbol hlisted)

/-- **A key is listed if it is that of a call.** -/
theorem mem_keys_ofHistory {k : String} :
    k ∈ (ofHistory calls).toList.map (key ·.name) ↔ k ∈ calls.map (key ·.name) := by
  have hkeyed := keyed_ofHistory calls
  rw [List.mem_map, List.mem_map]
  constructor
  · rintro ⟨symbol, hlisted, rfl⟩
    have hrecalls := Recalls.ofHistory calls symbol.name
    cases hfirst : calls.find? (·.isFor symbol.name) with
    | some call =>
      have hfor : call.isFor symbol.name := by simpa using List.find?_some hfirst
      exact ⟨call, List.mem_of_find?_eq_some hfirst, eq_of_beq hfor⟩
    | none =>
      have hnone := hrecalls.eq_none hfirst
      rw [hkeyed.mem_toList.1 hlisted] at hnone
      cases hnone
  · rintro ⟨call, hcall, rfl⟩
    have hrecalls := Recalls.ofHistory calls call.name
    cases hfirst : calls.find? (·.isFor call.name) with
    | some first =>
      obtain ⟨symbol, hsymbol, -⟩ := hrecalls.exists_symbol hfirst
      rw [← hkeyed.find?_toList] at hsymbol
      have hfor : symbol.isFor call.name := by simpa using List.find?_some hsymbol
      exact ⟨symbol, List.mem_of_find?_eq_some hsymbol, eq_of_beq hfor⟩
    | none => exact absurd (beq_self_eq_true _) (List.find?_eq_none.1 hfirst call hcall)

/-- **There are as many symbols as keys that were asked for.** -/
theorem size_ofHistory (calls : List Symbol) :
    (ofHistory calls).size = (calls.map (key ·.name)).toFinset.card := by
  have hkeyed := keyed_ofHistory calls
  have hkeys : ((ofHistory calls).toList.map (key ·.name)).toFinset =
      (calls.map (key ·.name)).toFinset := by
    ext k
    rw [List.mem_toFinset, List.mem_toFinset, mem_keys_ofHistory]
  rw [← hkeys, List.toFinset_card_of_nodup hkeyed.nodup_keys, hkeyed.keys_toList,
    Std.TreeMap.length_keys]
  rfl

end SymbolTable

/-- **A table is determined by its history.** Of the calls for a name, which
are those with its key, the first succeeds, and a later one succeeds if it asks
for the same kind; otherwise it fails, naming both kinds, and changes nothing.
In the end there is one symbol for each key that was asked for: a variable as it
was spelled first, with the value bound last, or a function as it was registered
last. Whatever is looked up, asked after or listed agrees on it. -/
theorem table_determined_by_history (calls : List Symbol) :
    (∀ call : Symbol,
      (calls.find? (·.isFor call.name) = none →
        ∃ after, (SymbolTable.ofHistory calls).define call = .ok after) ∧
      ∀ first, calls.find? (·.isFor call.name) = some first →
        ((∃ after, (SymbolTable.ofHistory calls).define call = .ok after) ↔
          call.meaning.kind = first.meaning.kind) ∧
        (call.meaning.kind ≠ first.meaning.kind →
          (SymbolTable.ofHistory calls).define call =
            .error ⟨call.name, call.meaning.kind, first.meaning.kind⟩ ∧
          SymbolTable.ofHistory (calls ++ [call]) = SymbolTable.ofHistory calls)) ∧
    (∀ name,
      SymbolTable.Recalls calls name ((SymbolTable.ofHistory calls).symbol? name) ∧
      (SymbolTable.ofHistory calls).lookup name =
        ((SymbolTable.ofHistory calls).symbol? name).map Symbol.meaning ∧
      (SymbolTable.ofHistory calls).contains name =
        ((SymbolTable.ofHistory calls).symbol? name).isSome ∧
      (SymbolTable.ofHistory calls).toList.find? (·.isFor name) =
        (SymbolTable.ofHistory calls).symbol? name) ∧
    ((SymbolTable.ofHistory calls).toList.map (SymbolTable.key ·.name)).Nodup ∧
    (∀ k, k ∈ (SymbolTable.ofHistory calls).toList.map (SymbolTable.key ·.name) ↔
      k ∈ calls.map (SymbolTable.key ·.name)) ∧
    (SymbolTable.ofHistory calls).size = (calls.map (SymbolTable.key ·.name)).toFinset.card := by
  have hkeyed := SymbolTable.keyed_ofHistory calls
  refine ⟨fun call => ⟨SymbolTable.define_of_first, fun first hfirst =>
      ⟨⟨fun ⟨after, hok⟩ => ?_, SymbolTable.define_of_later hfirst⟩, fun hkind => ?_⟩⟩,
    fun name => ⟨.ofHistory calls name, rfl, rfl, hkeyed.find?_toList name⟩, hkeyed.nodup_keys,
    fun k => SymbolTable.mem_keys_ofHistory, SymbolTable.size_ofHistory calls⟩
  · by_contra hkind
    rw [SymbolTable.define_of_later_ne hfirst hkind] at hok
    cases hok
  · have herror := SymbolTable.define_of_later_ne hfirst hkind
    refine ⟨herror, ?_⟩
    rw [SymbolTable.ofHistory_concat, SymbolTable.afterCall_of_error herror]

/-- Calls for a variable `x` and a function `f`, each in both spellings. -/
def Symbol.sampleCalls (first last : Float) : List Symbol :=
  [⟨"x", .var first⟩, ⟨"X", .fn (.ofCurried 1 fun x : Float => x)⟩, ⟨"X", .var last⟩,
    ⟨"f", .fn (.ofCurried 1 fun x : Float => x)⟩, ⟨"F", .fn (.ofCurried 0 last)⟩]

/-- A variable stays one in every spelling, and is listed as it was first
spelled; a name that was not asked for is free. -/
theorem history_of_variable_and_function :
    (∃ after, (SymbolTable.ofHistory (Symbol.sampleCalls 1.0 2.0)).define ⟨"y", .var 3.0⟩ =
      .ok after) ∧
    (∃ after, (SymbolTable.ofHistory (Symbol.sampleCalls 1.0 2.0)).define ⟨"X", .var 3.0⟩ =
      .ok after) ∧
    (SymbolTable.ofHistory (Symbol.sampleCalls 1.0 2.0)).define
        ⟨"X", .fn (.ofCurried 0 (3.0 : Float))⟩ = .error ⟨"X", .fn, .var⟩ ∧
    SymbolTable.Recalls (Symbol.sampleCalls 1.0 2.0) "X" (some ⟨"x", .var 2.0⟩) ∧
    (SymbolTable.ofHistory (Symbol.sampleCalls 1.0 2.0)).size = 2 := by
  have hnone (first last : Float) :
      (Symbol.sampleCalls first last).find? (Symbol.isFor "y") = none := by
    cbv
  have hfirst (first last : Float) : (Symbol.sampleCalls first last).find? (Symbol.isFor "X") =
      some ⟨"x", .var first⟩ := by
    cbv
  have hsymbol (first last : Float) :
      (SymbolTable.ofHistory (Symbol.sampleCalls first last)).symbol? "X" =
        some ⟨"x", .var last⟩ := by
    cbv
  have hsize (first last : Float) :
      (SymbolTable.ofHistory (Symbol.sampleCalls first last)).size = 2 := by
    cbv
  obtain ⟨hcalls, hnames, -⟩ := table_determined_by_history (Symbol.sampleCalls 1.0 2.0)
  obtain ⟨hrecalls, -⟩ := hnames "X"
  rw [hsymbol 1.0 2.0] at hrecalls
  obtain ⟨hnew, -⟩ := hcalls ⟨"y", .var 3.0⟩
  obtain ⟨-, hvariable⟩ := hcalls ⟨"X", .var 3.0⟩
  obtain ⟨-, hfunction⟩ := hcalls ⟨"X", .fn (.ofCurried 0 (3.0 : Float))⟩
  exact ⟨hnew (hnone 1.0 2.0), (hvariable _ (hfirst 1.0 2.0)).1.2 (by simp only [Meaning.kind]),
    ((hfunction _ (hfirst 1.0 2.0)).2 (by simp only [Meaning.kind, ne_eq, reduceCtorEq,
      not_false_eq_true])).1, hrecalls, hsize 1.0 2.0⟩

end Calculator
