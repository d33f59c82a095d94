import Calculator.Evaluation
import Calculator.Proofs.Grammar.Descent
import Calculator.Proofs.Grammar.Diagnosis
import Calculator.Proofs.Token.Source
/-!
# Tokens on demand

Routines that look ahead and read again what they saw parse a source as they
parse the tokens of it from a tape, and as a machine does that looks at no
token twice (`parse_on_demand`). Reading stops at the first error of either
kind, so an expression is never found in a source that is no sequence of
tokens, and what is reported then stands no further on than what is no token.
It comes out as a lexical error or as one of syntax, whichever it is
(`Surfaces`).
-/

namespace Calculator

variable {context : Context} {machine : Machine} {token : Token}

namespace Machine

/-! ## Runs over sources -/

/-- A machine fed by a cursor runs. -/
theorem pull_cursor (machine : Machine) (cursor : Cursor) :
    machine.pull context cursor = machine.run context cursor := by
  fun_induction Machine.run context machine cursor with
  | case1 machine cursor error next h => exact pull_of_error h
  | case2 machine cursor token next h hkind => exact pull_of_end h hkind
  | case3 machine cursor token next h hkind hlt error hstep =>
    rw [pull_of_token h hkind, hstep]
    rfl
  | case4 machine cursor token next h hkind hlt after hstep ih =>
    rw [pull_of_token h hkind, hstep]
    exact ih

/-- Fed by a tape it runs over the stream. -/
theorem pull_tape (machine : Machine) (tape : Tape) :
    machine.pull context tape = machine.runStream context tape.toTokenStream := by
  obtain ⟨⟨tokens, ending⟩, hkinds, hending, hnumbers⟩ := tape
  induction tokens generalizing machine with
  | nil =>
    cases ending with
    | error error => exact pull_of_error rfl
    | ok last => exact pull_of_end rfl (hending last rfl)
  | cons token tokens ih =>
    rw [pull_of_token rfl (hkinds token (.head _)), runStream, List.foldlM_cons]
    cases machine.step context token with
    | error error => rfl
    | ok after => exact ih after _ _ _

end Machine

/-! ## Which error is first -/

/-- An error of a step ends where the token does, and is not lexical. -/
theorem Machine.Fails.stop_eq {error : Located SyntaxError}
    (h : machine.Fails context token error) :
    error.span.stop = token.stop ∧ ∀ lexError, error.value ≠ .lexical lexError := by
  cases h with
  | refused hrefusal =>
    refine ⟨rfl, ?_⟩
    rintro lexError rfl
    exact hrefusal
  | undefined => exact ⟨rfl, nofun⟩
  | miscounted => exact ⟨rfl, nofun⟩

/-- A run over tokens fails at one of them. -/
theorem Machine.exists_fails_of_read {us : List Token} {error : Located SyntaxError}
    (h : Machine.start.read context us = .error error) :
    ∃ token ∈ us, ∃ machine : Machine, machine.Fails context token error := by
  obtain ⟨before, token, rest, machine, rfl, hbefore, hstep⟩ :=
    Machine.exists_step_of_read_eq_error h
  have hspells : machine.Spells context.laxGrammar before := Machine.spells_of_read hbefore
  exact ⟨token, by simp, machine, Machine.fails_of_step hspells.suits hstep⟩

/-- What is no token ends the stream of a source that has any such thing. -/
theorem ending_of_tokenize {source : String} {error : Located LexError}
    (h : tokenize source = .error error) : (TokenStream.ofString source).ending = .error error := by
  unfold tokenize TokenStream.toExcept at h
  cases hending : (TokenStream.ofString source).ending with
  | error error' =>
    rw [hending] at h
    cases h
    rfl
  | ok last =>
    rw [hending] at h
    cases h

/-- **What is no token is reported** if no token before it is wrong. -/
theorem parse_eq_of_tokenize_eq_error {source : String} {error : Located LexError}
    (h : tokenize source = .error error) :
    parse context source =
      (Machine.start.read context (TokenStream.ofString source).tokens).bind fun _ =>
        .error (error.map .lexical) := by
  rw [parse_eq_parseStream, parseStream, Machine.runStream, ending_of_tokenize h]
  rfl

/-- **A lexical error is that of the tokens.** -/
theorem tokenize_eq_of_parse_eq_lexical {source : String} {error : LexError} {span : Span}
    (h : parse context source = .error ⟨.lexical error, span⟩) :
    tokenize source = .error ⟨error, span⟩ := by
  rw [parse_eq_parseStream, parseStream, Machine.runStream, ← Machine.read] at h
  unfold tokenize
  generalize TokenStream.ofString source = stream at h ⊢
  obtain ⟨tokens, ending⟩ := stream
  cases hread : Machine.start.read context tokens with
  | error complaint =>
    rw [hread] at h
    cases h
    obtain ⟨token, -, machine, hfails⟩ := Machine.exists_fails_of_read hread
    exact absurd rfl (hfails.stop_eq.2 error)
  | ok machine =>
    rw [hread] at h
    cases ending with
    | error lexError =>
      cases h
      rfl
    | ok last =>
      have hcomplaint : .lexical error = machine.complaint last :=
        congrArg Located.value (Machine.eq_complaint_of_finish h)
      have hrefusal := machine.complaint_isRefusal last
      rw [← hcomplaint] at hrefusal
      exact hrefusal.elim

/-! ## What a source comes to -/

/-- **What a parser finds is what its source comes to.** -/
structure Surfaces (found : Except (Located SyntaxError) Expr) (surfaced : Except Error Expr) :
    Prop where
  /-- The expression is the same. -/
  tree : ∀ tree, surfaced = .ok tree ↔ found = .ok tree
  /-- A lexical error of the source is one that the parser met, with its place. -/
  lexical : ∀ error, surfaced = .error (.lexical error) ↔ found = .error (error.map .lexical)
  /-- An error of syntax is any other. -/
  syntactic : ∀ error, surfaced = .error (.syntactic error) ↔
    found = .error error ∧ ∀ lexError, error.value ≠ .lexical lexError
  /-- Every error has the text that the parser gave it. -/
  message : ∀ complaint, found = .error complaint →
    ∃ error, surfaced = .error error ∧ error.message = complaint.text SyntaxError.message

/-- A source comes to what the parser finds. -/
theorem surfaces_parse (context : Context) (source : String) :
    Surfaces (parse context source) (context.parse source) := by
  unfold Context.parse
  cases parse context source with
  | ok tree =>
    show Surfaces (.ok tree) (.ok tree)
    exact ⟨by simp, by simp, by simp, nofun⟩
  | error complaint =>
    show Surfaces (.error complaint) (.error (.ofParse complaint))
    refine ⟨by simp, fun error => ?_, fun error => ?_, fun _ hfound => ?_⟩
    · rw [Except.error.injEq, Except.error.injEq, Error.ofParse_eq_lexical_iff]
    · rw [Except.error.injEq, Except.error.injEq, Error.ofParse_eq_syntactic_iff]
    · cases hfound
      exact ⟨_, rfl, Error.message_ofParse complaint⟩

/-- **Reading tokens on demand is reading them from a tape.** Routines that
look ahead at a source parse it as they parse the tape of its tokens, and as
the machine does. If something in the source is no token, there is no
expression: it is reported as a lexical error if nothing is wrong with the
tokens before it, and otherwise what is wrong with them, as an error of syntax,
which ends before it starts. No other lexical error is reported, since what is
read as a number is always taken for one. -/
theorem parse_on_demand (context : Context) (source : String) :
    Descent.whole context (Cursor.ofString source) = parse context source ∧
      Descent.whole context (Tape.ofString source) = parse context source ∧
      Surfaces (parse context source) (context.parse source) ∧
      (∀ error, tokenize source = .error error →
        (∀ tree, context.parse source ≠ .ok tree) ∧
        (context.parse source = .error (.lexical error) ↔
          ∀ complaint, Machine.start.read context (TokenStream.ofString source).tokens ≠
            .error complaint) ∧
        (context.parse source ≠ .error (.lexical error) →
          ∃ complaint, context.parse source = .error (.syntactic complaint) ∧
            (∀ lexError, complaint.value ≠ .lexical lexError) ∧
            complaint.span.stop ≤ error.span.start)) ∧
      (∀ error, context.parse source = .error (.lexical error) →
        tokenize source = .error error) ∧
      ∀ token ∈ (TokenStream.ofString source).tokens, token.kind = .number →
        Descent.number token = .ok (.num (Literal.valueOf token.text)) := by
  have hstart : (Cursor.ofString source).place.In source.toList := ⟨Nat.zero_le _, rfl⟩
  have hordered : (TokenStream.ofString source).Ordered (Cursor.ofString source).pos :=
    TokenStream.ordered_ofCursor hstart
  have hsurfaces := surfaces_parse context source
  refine ⟨?_, ?_, hsurfaces, fun error herror => ?_, fun error hlexical =>
    tokenize_eq_of_parse_eq_lexical ((hsurfaces.lexical error).1 hlexical),
    fun token htoken hkind => ?_⟩
  · rw [Machine.whole_eq_pull, Machine.pull_cursor]
    rfl
  · rw [Machine.whole_eq_pull, Machine.pull_tape, parse_eq_parseStream]
    rfl
  · have hending := ending_of_tokenize herror
    simp only [ne_eq, hsurfaces.tree, hsurfaces.lexical, hsurfaces.syntactic]
    rw [parse_eq_of_tokenize_eq_error herror]
    cases hread : Machine.start.read context (TokenStream.ofString source).tokens with
    | error complaint =>
      obtain ⟨token, htoken, machine, hfails⟩ := Machine.exists_fails_of_read hread
      obtain ⟨hstop, hlexical⟩ := hfails.stop_eq
      have hle := hordered.stop_le_ending token htoken
      rw [hending] at hle
      refine ⟨nofun, ⟨fun h => ?_, fun h => absurd rfl (h complaint)⟩, fun _ =>
        ⟨complaint, ⟨rfl, hlexical⟩, hlexical, hstop.trans_le hle⟩⟩
      cases h
      exact absurd rfl (hlexical _)
    | ok machine => exact ⟨nofun, ⟨nofun, fun _ => rfl⟩, fun h => absurd rfl h⟩
  · rw [Descent.number, if_pos (TokenStream.isNumber_ofCursor _ token htoken hkind)]

/-- What is no token is reported behind an expression that is complete so far,
and not behind a parenthesis that closes nothing. -/
theorem parse_on_demand_before_and_after :
    (tokenize "x 2e+" = .error ⟨.malformedNumber "2e+", 2, 5⟩ ∧
      (Context.sample 2.0).parse "x 2e+" = .error (.lexical ⟨.malformedNumber "2e+", 2, 5⟩) ∧
      Descent.whole (.sample 2.0) (Tape.ofString "x 2e+") =
        .error ⟨.lexical (.malformedNumber "2e+"), 2, 5⟩) ∧
    tokenize "x)@" = .error ⟨.unrecognized '@', 2, 3⟩ ∧
      (Context.sample 2.0).parse "x)@" = .error (.syntactic ⟨.trailingInput ")", 1, 2⟩) ∧
      ∃ complaint, (Context.sample 2.0).parse "x)@" = .error (.syntactic complaint) ∧
        complaint.span.stop ≤ 2 := by
  have hreported (value : Float) : parse (.sample value) "x 2e+" =
      .error ⟨.lexical (.malformedNumber "2e+"), 2, 5⟩ := by
    cbv
  have hunrecognized : tokenize "x)@" = .error ⟨.unrecognized '@', 2, 3⟩ := by
    cbv
  have htrailing (value : Float) : parse (.sample value) "x)@" =
      .error ⟨.trailingInput ")", 1, 2⟩ := by
    cbv
  obtain ⟨-, htape, hsurfaces, -, hlexical, -⟩ := parse_on_demand (.sample 2.0) "x 2e+"
  obtain ⟨-, -, hsurfaces', herrors, -⟩ := parse_on_demand (.sample 2.0) "x)@"
  have hreports := (hsurfaces.lexical ⟨.malformedNumber "2e+", 2, 5⟩).2 (hreported 2.0)
  have htrails :=
    (hsurfaces'.syntactic ⟨.trailingInput ")", 1, 2⟩).2 ⟨htrailing 2.0, by simp⟩
  obtain ⟨-, -, hearlier⟩ := herrors _ hunrecognized
  obtain ⟨complaint, hcomplaint, -, hstop⟩ := hearlier (by simp [htrails])
  exact ⟨⟨hlexical _ hreports, hreports, htape.trans (hreported 2.0)⟩,
    hunrecognized, htrails, complaint, hcomplaint, hstop⟩

end Calculator
