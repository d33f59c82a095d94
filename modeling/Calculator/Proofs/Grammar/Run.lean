import Calculator.Grammar.Parse
/-!
# Runs over tokens

`Machine.read` feeds a machine a list of tokens. A run over a list is a run
over its first part and then over the rest (`Machine.read_append`), and a
source that has tokens parses as the run over them ends
(`parse_eq_of_tokenize`): that tokens are read as the machine asks for them
makes no difference (`Machine.run_eq_runStream`).
-/

namespace Calculator

variable {context : Context} {machine after : Machine} {token : Token} {us vs : List Token}

namespace Machine

/-- **Reads tokens one after the other**, up to the first that is refused. -/
def read (context : Context) (machine : Machine) (tokens : List Token) :
    Except (Located SyntaxError) Machine :=
  tokens.foldlM (step context) machine

@[simp] theorem read_nil : machine.read context [] = .ok machine := rfl

@[simp] theorem read_cons : machine.read context (token :: us) =
    (machine.step context token).bind fun next => next.read context us := rfl

/-- **A run goes on where its first part ends.** -/
theorem read_append : machine.read context (us ++ vs) =
    (machine.read context us).bind fun next => next.read context vs :=
  List.foldlM_append

/-- A run over one token is a step. -/
theorem read_singleton : machine.read context [token] = machine.step context token := by
  rw [read_cons]
  cases machine.step context token <;> rfl

/-- A run that ends well passes through a machine after each part. -/
theorem read_append_eq_ok : machine.read context (us ++ vs) = .ok after ↔
    ∃ next, machine.read context us = .ok next ∧ next.read context vs = .ok after := by
  rw [read_append]
  cases machine.read context us with
  | error error => simp [Except.bind]
  | ok next => simp [Except.bind]

/-- The same, with a step first. -/
theorem read_cons_eq_ok : machine.read context (token :: us) = .ok after ↔
    ∃ next, machine.step context token = .ok next ∧ next.read context us = .ok after := by
  rw [read_cons]
  cases machine.step context token with
  | error error => simp [Except.bind]
  | ok next => simp [Except.bind]

/-- What refuses a token in a run over some tokens does so in a run over more. -/
theorem read_append_eq_error {error : Located SyntaxError}
    (h : machine.read context us = .error error) :
    machine.read context (us ++ vs) = .error error := by
  rw [read_append, h]
  rfl

end Machine

/-! ## Sources -/

namespace TokenStream

variable {cursor next : Cursor}

/-- What is no token ends the stream. -/
theorem ofCursor_of_error {error : Located LexError} (h : cursor.nextToken = (.error error, next)) :
    ofCursor cursor = ⟨[], .error error⟩ := by
  rw [ofCursor]
  split
  · rename_i error' _ h'
    obtain rfl : error = error' := by simpa [h] using congrArg Prod.fst h'
    rfl
  · rename_i h'
    rw [h] at h'
    cases h'

/-- The end of the input ends it too. -/
theorem ofCursor_of_end (h : cursor.nextToken = (.ok token, next))
    (hkind : token.kind = .endOfInput) : ofCursor cursor = ⟨[], .ok token⟩ := by
  rw [ofCursor]
  split
  · rename_i h'
    rw [h] at h'
    cases h'
  · rename_i h'
    rw [h] at h'
    cases h'
    rw [dif_pos hkind]

/-- Any other token comes before those that follow it. -/
theorem ofCursor_of_token (h : cursor.nextToken = (.ok token, next))
    (hkind : token.kind ≠ .endOfInput) :
    ofCursor cursor = ⟨token :: (ofCursor next).tokens, (ofCursor next).ending⟩ := by
  rw [ofCursor]
  split
  · rename_i h'
    rw [h] at h'
    cases h'
  · rename_i h'
    rw [h] at h'
    cases h'
    rw [dif_neg hkind]

/-- **A stream that ends well ends with the end of the input**, and only there. -/
theorem kinds_ofCursor (cursor : Cursor) :
    (∀ token ∈ (ofCursor cursor).tokens, token.kind ≠ .endOfInput) ∧
      ∀ last, (ofCursor cursor).ending = .ok last → last.kind = .endOfInput := by
  fun_induction ofCursor cursor with
  | case1 => simp
  | case2 cursor token next h hkind => simpa using hkind
  | case3 cursor token next h hkind hlt rest ih =>
    refine ⟨fun t ht => ?_, ih.2⟩
    rcases List.mem_cons.1 ht with rfl | ht
    · exact hkind
    · exact ih.1 t ht

end TokenStream

/-- **Tokens read on demand are those of the stream.** -/
theorem Machine.run_eq_runStream (machine : Machine) (cursor : Cursor) :
    machine.run context cursor = machine.runStream context (.ofCursor cursor) := by
  fun_induction Machine.run context machine cursor with
  | case1 machine cursor error next h => rw [TokenStream.ofCursor_of_error h]; rfl
  | case2 machine cursor token next h hkind => rw [TokenStream.ofCursor_of_end h hkind]; rfl
  | case3 machine cursor token next h hkind hlt error hstep =>
    rw [TokenStream.ofCursor_of_token h hkind, runStream, List.foldlM_cons, hstep]
    rfl
  | case4 machine cursor token next h hkind hlt after hstep ih =>
    rw [TokenStream.ofCursor_of_token h hkind, runStream, List.foldlM_cons, hstep, ih]
    rfl

/-- A source parses as its stream does. -/
theorem parse_eq_parseStream (context : Context) (source : String) :
    parse context source = parseStream context (.ofString source) :=
  Machine.run_eq_runStream _ _

/-- **A source parses as the run over its tokens ends.** -/
theorem parse_eq_of_tokenize {source : String} {all : List Token} (h : tokenize source = .ok all) :
    ∃ tokens last, all = tokens ++ [last] ∧ last.kind = .endOfInput ∧
      (∀ token ∈ tokens, token.kind ≠ .endOfInput) ∧
      ∀ context, parse context source =
        (Machine.start.read context tokens).bind fun machine => machine.finish last := by
  -- The stream is all that matters of the source, so it may be any that ends so.
  obtain ⟨hkinds, hlast⟩ := TokenStream.kinds_ofCursor (.ofString source)
  rw [← TokenStream.ofString] at hkinds hlast
  simp only [parse_eq_parseStream]
  unfold tokenize at h
  generalize TokenStream.ofString source = stream at h hkinds hlast
  obtain ⟨tokens, ending⟩ := stream
  cases ending with
  | error error => cases h
  | ok last =>
    cases h
    exact ⟨tokens, last, rfl, hlast last rfl, hkinds, fun _ => rfl⟩

/-- A source that parses has tokens, and the run over them ends in the tree. -/
theorem exists_read_of_parse {source : String} {tree : Expr} (h : parse context source = .ok tree) :
    ∃ tokens last machine, tokenize source = .ok (tokens ++ [last]) ∧
      Machine.start.read context tokens = .ok machine ∧ machine.finish last = .ok tree := by
  rw [parse_eq_parseStream] at h
  unfold tokenize
  generalize TokenStream.ofString source = stream at h ⊢
  obtain ⟨tokens, ending⟩ := stream
  rw [parseStream, Machine.runStream, ← Machine.read] at h
  cases hread : Machine.start.read context tokens with
  | error error =>
    rw [hread] at h
    cases h
  | ok machine =>
    rw [hread] at h
    cases ending with
    | error error => cases h
    | ok last => exact ⟨tokens, last, machine, rfl, hread, h⟩

end Calculator
