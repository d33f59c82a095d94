import Calculator.Proofs.Evaluation.KeptTree
import Calculator.Proofs.Grammar.Composition
import Calculator.Proofs.Grammar.Diagnosis
import Calculator.Proofs.Token.Slice
/-!
# What the span of an error shows

An error is located at what it names: cut out of the source, its span is the
character, the text, the name or the token that the message speaks of, and at the
end of the input it is nothing (`spans_show_what_errors_name`). A call with a wrong
number of arguments is cut out as a whole, and since its tokens are the same on
their own (`TokenStream.scans_slice`), it is wrong in the same way there
(`parse_slice_of_call`).
-/

namespace Calculator

variable {context : Context} {source : String} {error : Located SyntaxError}
variable {before after us ts : List Token} {token name opening closing : Token}
variable {operation : Operation}

/-- The error is about the end of the input. -/
def SyntaxError.IsAboutEnd : SyntaxError → Prop
  | .unexpectedEnd => True
  | .unexpectedToken _ found | .missingOperand _ found => found = .endOfInput
  | .lexical _ | .undefinedIdentifier _ | .arityMismatch _ | .trailingInput _ => False

/-- **What the error names is what its span shows**, in the source it is about: a
character, a text, a single token, or a call from its name to the parenthesis that
closes it. A call fails on its own as it did there. -/
inductive Shows (context : Context) (source : String) : Located SyntaxError → Prop
  | character {c : Char} {span : Span} : span.slice source.toList = [c] →
      Shows context source ⟨.lexical (.unrecognized c), span⟩
  | number {text : String} {span : Span} : span.slice source.toList = text.toList →
      Shows context source ⟨.lexical (.malformedNumber text), span⟩
  | name {name : String} {span : Span} : span.slice source.toList = name.toList →
      Shows context source ⟨.undefinedIdentifier name, span⟩
  | trailing {text : String} {span : Span} : span.slice source.toList = text.toList →
      Shows context source ⟨.trailingInput text, span⟩
  | unexpected {token : Token} {expected : List Kind} :
      token ∈ (TokenStream.ofString source).tokens →
      token.span.slice source.toList = token.text.toList →
      Shows context source ⟨.unexpectedToken expected token.kind, token.span⟩
  | missing {token : Token} {operator : Kind} :
      token ∈ (TokenStream.ofString source).tokens →
      token.span.slice source.toList = token.text.toList →
      Shows context source ⟨.missingOperand operator token.kind, token.span⟩
  | call {before call after : List Token} {name closing : Token} {operation : Operation}
      {count : Nat} {text : String} :
      (TokenStream.ofString source).tokens = before ++ (call ++ after) →
      IsCall context name closing operation count call →
      (Span.mk name.start closing.stop).slice source.toList = text.toList →
      parse context text =
        .error ⟨.arityMismatch ⟨name.text, operation.arity, count⟩, 0, text.length⟩ →
      Shows context source
        ⟨.arityMismatch ⟨name.text, operation.arity, count⟩, name.start, closing.stop⟩

/-! ## Tokens of a source -/

/-- **A refusal shows its token**, and it is not about the end of the input. -/
theorem shows_complaint (htoken : token ∈ (TokenStream.ofString source).tokens)
    (machine : Machine) : ¬ (machine.complaint token).IsAboutEnd ∧
      Shows context source ⟨machine.complaint token, token.span⟩ := by
  have hkind : token.kind ≠ .endOfInput := (TokenStream.kinds_ofCursor _).1 token htoken
  obtain ⟨-, -, hslice⟩ := TokenStream.slice_of_mem (Cursor.in_ofString source) htoken
  unfold Machine.complaint
  split
  · rw [if_neg hkind]
    exact ⟨hkind, .unexpected htoken hslice⟩
  · exact ⟨hkind, .missing htoken hslice⟩
  · exact ⟨hkind, .unexpected htoken hslice⟩
  · split
    · exact ⟨id, .trailing hslice⟩
    · exact ⟨hkind, .unexpected htoken hslice⟩
    · exact ⟨hkind, .unexpected htoken hslice⟩

/-- **At the end of the input a refusal is about the end.** -/
theorem isAboutEnd_of_finish {machine : Machine} (hkind : token.kind = .endOfInput)
    (h : machine.finish token = .error error) :
    error.value.IsAboutEnd ∧ error.span = token.span := by
  obtain rfl := Machine.eq_complaint_of_finish h
  refine ⟨?_, rfl⟩
  obtain ⟨levels, pending, phase⟩ := machine
  unfold Machine.complaint
  cases phase with
  | start =>
    dsimp only
    rw [if_pos hkind]
    trivial
  | operand => exact hkind
  | callee => exact hkind
  | complete =>
    match levels, h with
    | [], h => cases h
    | ⟨.group, _⟩ :: _, _ => exact hkind
    | ⟨.call .., _⟩ :: _, _ => exact hkind

/-! ## Calls cut out of a source -/

/-- What is derived when arguments are counted is so when they are not. -/
theorem Derives.lax_arguments {es : List Expr} (h : Derives context.grammar ts (.arguments es)) :
    Derives context.laxGrammar ts (.arguments es) :=
  h.transfer fun tree htree => (h.resolves tree htree).transfer fun _ meaning hmeaning =>
    ⟨meaning, hmeaning, rfl⟩

/-- Tokens that derive a phrase further on do so where they were. -/
theorem Derives.of_shift {grammar : Grammar} {phrase : Phrase} {n : Nat}
    (h : Derives grammar (ts.map (·.shift n)) phrase) : Derives grammar ts phrase := by
  have hback := h.map (g := fun token => { token with start := token.start - n })
    (fun _ => rfl) fun _ => rfl
  have hid : (ts.map (·.shift n)).map (fun token => { token with start := token.start - n }) =
      ts := by
    rw [List.map_map]
    refine List.map_id'' (fun token => ?_) ts
    simp [Token.shift]
  rwa [hid] at hback

/-- **A call with a wrong number of arguments fails on its own as it does in its
source**, and then its error is the whole of it. -/
theorem parse_slice_of_call {es : List Expr}
    (htokens : (TokenStream.ofString source).tokens =
      before ++ (name :: opening :: (ts ++ [closing]) ++ after))
    (hname : name.kind = .identifier) (hlookup : context.lookup name.text = some (.fn operation))
    (hopening : opening.kind = .openParen) (hderives : Derives context.grammar ts (.arguments es))
    (hclosing : closing.kind = .closeParen) (hcount : es.length ≠ operation.arity) :
    ∃ text : String, (Span.mk name.start closing.stop).slice source.toList = text.toList ∧
      parse context text =
        .error ⟨.arityMismatch ⟨name.text, operation.arity, es.length⟩, 0, text.length⟩ := by
  -- On their own the tokens stand at the start, and a phrase does not care where.
  have hsplit : (TokenStream.ofString source).tokens =
      before ++ name :: ((opening :: ts) ++ closing :: after) := by
    rw [htokens]
    simp only [List.append_assoc, List.cons_append, List.nil_append]
  obtain ⟨tokens, hscans, hshift⟩ := TokenStream.scans_between (Cursor.in_ofString source) hsplit
  have hclosingIn : closing ∈ (TokenStream.ofString source).tokens := by
    rw [hsplit]
    simp
  obtain ⟨-, hstop, -⟩ := TokenStream.slice_of_mem (Cursor.in_ofString source) hclosingIn
  have hlength : ((Span.mk name.start closing.stop).slice source.toList).length = _ :=
    Span.length_slice hstop
  generalize hstart : name.start = start at hscans hshift hlength ⊢
  generalize (Span.mk start closing.stop).slice source.toList = text at hscans hlength ⊢
  obtain ⟨name', tokens, rfl, rfl, hrest⟩ := List.map_eq_cons_iff.1 hshift.symm
  obtain ⟨opening', tokens, rfl, rfl, hrest'⟩ := List.map_eq_cons_iff.1 hrest
  obtain ⟨ts', tokens, rfl, rfl, hend⟩ := List.map_eq_append_iff.1 hrest'
  obtain ⟨closing', rfl, rfl⟩ := List.map_eq_singleton_iff.1 hend
  refine ⟨.ofList text, String.toList_ofList.symm, ?_⟩
  have hfirst : name'.start = 0 := by
    have hmoved : name'.start + start = start := hstart
    omega
  have hlast : closing'.stop = text.length := by
    have hmoved : text.length = closing'.start + start + closing'.text.length - start := hlength
    rw [Token.stop]
    omega
  rw [← String.toList_ofList (l := text)] at hscans
  rw [parse_of_call_tokens hscans hname hlookup hopening hderives.of_shift hclosing, if_neg hcount,
    hfirst, hlast, String.length_ofList]
  rfl

/-! ## Errors -/

/-- **A call that fails shows all of itself.** -/
theorem shows_miscounted {machine : Machine} {arity : Nat} {outer : Pending} {levels : List Level}
    {arguments : List Expr} (hin : Machine.InCall name arity outer levels arguments machine)
    (htokens : (TokenStream.ofString source).tokens = before ++ closing :: after)
    (hspells : machine.Spells context.grammar before) (hclosing : closing.kind = .closeParen)
    (hcount : arguments.length ≠ arity) :
    name.start < closing.stop ∧ Shows context source
      ⟨.arityMismatch ⟨name.text, arity, arguments.length⟩, name.start, closing.stop⟩ := by
  obtain ⟨operation, opening, vs, ws, xs, rfl, rfl, -, -, hname, hlookup, hopening, hderives⟩ :=
    hin.exists_arguments hspells
  have hsplit : (TokenStream.ofString source).tokens =
      (vs ++ ws) ++ (name :: opening :: (xs ++ [closing]) ++ after) := by
    rw [htokens]
    simp only [List.append_assoc, List.cons_append, List.nil_append]
  have hcall : IsCall context name closing operation arguments.length
      (name :: opening :: (xs ++ [closing])) :=
    .intro hname hlookup hopening hderives.lax_arguments hclosing
  obtain ⟨text, hslice, hparse⟩ :=
    parse_slice_of_call hsplit hname hlookup hopening hderives hclosing hcount
  have hordered : (TokenStream.ofString source).Ordered 0 :=
    TokenStream.ordered_ofCursor (Cursor.in_ofString source)
  have hbehind : name.stop ≤ closing.start := by
    have hapart := hordered.apart
    rw [hsplit, List.pairwise_append] at hapart
    exact List.rel_of_pairwise_cons hapart.2.1 (by simp)
  have hname := hordered.start_lt name (by simp [hsplit])
  have hclosing := hordered.start_lt closing (by simp [hsplit])
  exact ⟨by omega, .call hsplit hcall hslice hparse⟩

/-- **An error is about the end of the input and located there, or it shows what it
names**, which is something. -/
theorem located_of_parse (h : parse context source = .error error) :
    (error.value.IsAboutEnd ∧ error.span = .empty source.length) ∨
      ¬ error.value.IsAboutEnd ∧ error.span.start < error.span.stop ∧
        error.span.stop ≤ source.length ∧ Shows context source error := by
  have hin := Cursor.in_ofString source
  rcases stops_of_parse h with @⟨before, rest, token, machine, _, htokens, hread, hstep⟩ |
    @⟨last, machine, _, hending, hread, hfinish⟩ | @⟨error, machine, hending, hread⟩
  · have htoken : token ∈ (TokenStream.ofString source).tokens := by simp [htokens]
    obtain ⟨hlt, hle, hslice⟩ := TokenStream.slice_of_mem hin htoken
    have hspells : machine.Spells context.grammar before := Machine.spells_of_read hread
    refine .inr ?_
    rcases Machine.fails_of_step hspells.suits hstep with hrefusal | - | ⟨hcall, hclosing, hcount⟩
    · obtain ⟨hend, hshows⟩ := shows_complaint htoken machine
      rw [Machine.eq_complaint_of_step hstep hrefusal]
      exact ⟨hend, hlt, hle, hshows⟩
    · exact ⟨id, hlt, hle, .name hslice⟩
    · obtain ⟨hlt, hshows⟩ := shows_miscounted hcall htokens hspells hclosing hcount
      exact ⟨id, hlt, hle, hshows⟩
  · obtain ⟨hend, hspan⟩ :=
      isAboutEnd_of_finish ((TokenStream.kinds_ofCursor _).2 last hending) hfinish
    refine .inl ⟨hend, ?_⟩
    rw [hspan, TokenStream.span_of_end hin hending, String.length_toList]
  · obtain ⟨hlt, hle, hslice⟩ := TokenStream.slice_of_error hin hending
    refine .inr ⟨id, hlt, hle, ?_⟩
    obtain ⟨_ | _, span⟩ := error
    · exact .character hslice
    · exact .number hslice

/-- **Every span that is reported is a slice of the source that shows what the message
names.** It lies in the source; it is empty if and only if the error is about the end
of the input, and then it stands at the end; and otherwise it shows what the error
names, which for a call is the whole of it, and on its own the call fails as it did. -/
theorem spans_show_what_errors_name (context : Context) (source : String)
    (error : Located SyntaxError) (h : parse context source = .error error) :
    error.span.start ≤ error.span.stop ∧ error.span.stop ≤ source.length ∧
      (error.span.start = error.span.stop ↔ error.value.IsAboutEnd) ∧
      (error.value.IsAboutEnd → error.span.start = source.length) ∧
      (¬ error.value.IsAboutEnd → Shows context source error) := by
  rcases located_of_parse h with ⟨hend, hspan⟩ | ⟨hend, hlt, hle, hshows⟩
  · rw [hspan]
    exact ⟨Nat.le_refl _, Nat.le_refl _, iff_of_true rfl hend, fun _ => rfl, absurd hend⟩
  · exact ⟨Nat.le_of_lt hlt, hle, iff_of_false (Nat.ne_of_lt hlt) hend,
      fun hend' => absurd hend' hend, fun _ => hshows⟩

/-- A call behind an operator shows itself without it, and one that is cut off is
about the end of the input. -/
theorem span_shows_call_behind_operator :
    (parse (.sample 2.0) "x*f(x, x)" = .error ⟨.arityMismatch ⟨"f", 1, 2⟩, 2, 9⟩ ∧
      Shows (.sample 2.0) "x*f(x, x)" ⟨.arityMismatch ⟨"f", 1, 2⟩, 2, 9⟩) ∧
    parse (.sample 2.0) "x*f(x" =
        .error ⟨.unexpectedToken [.comma, .closeParen] .endOfInput, 5, 5⟩ ∧
      (SyntaxError.unexpectedToken [.comma, .closeParen] .endOfInput).IsAboutEnd := by
  have hcall (value : Float) : parse (.sample value) "x*f(x, x)" =
      .error ⟨.arityMismatch ⟨"f", 1, 2⟩, 2, 9⟩ := by
    cbv
  have hcut (value : Float) : parse (.sample value) "x*f(x" =
      .error ⟨.unexpectedToken [.comma, .closeParen] .endOfInput, 5, 5⟩ := by
    cbv
  obtain ⟨-, -, -, -, hshows⟩ := spans_show_what_errors_name _ _ _ (hcall 2.0)
  obtain ⟨-, -, hend, -, -⟩ := spans_show_what_errors_name _ _ _ (hcut 2.0)
  exact ⟨⟨hcall 2.0, hshows id⟩, hcut 2.0, hend.1 rfl⟩

end Calculator
