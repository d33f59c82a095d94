import Calculator.Proofs.Token.Scan
import Calculator.Proofs.Token.Tiling
/-!
# Slices and their tokens

What is read at a place is read there too if the source is cut off behind it
(`Lexeme.read_cut`): nothing that is left out could have gone on with it. So a
slice of a source from one token to another scans as the tokens from the one to the
other (`TokenStream.scans_slice`), which are the same wherever it stands
(`Scans.unshift`).
-/

namespace Calculator

variable {source text more rest : List Char} {kind : Kind} {cursor : Cursor}
variable {last : Token} {tokens ts us : List Token} {pos : Nat}

/-! ## Texts that are cut off -/

/-- The longest word stays the longest where less follows. -/
theorem IsLongest.cut {language : Language Char} (h : IsLongest language (text ++ more) text)
    (hrest : rest <+: more) : IsLongest language (text ++ rest) text where
  mem := h.mem
  begins := List.prefix_append text rest
  longest other hmem hbegins :=
    h.longest other hmem (hbegins.trans ((List.prefix_append_right_inj text).2 hrest))

/-- An exponent without digits stays one where more follows. -/
theorem Literal.Dangles.extend {number after : List Char} {letter : Char}
    (h : Dangles (number ++ rest) number letter after) (hrest : rest <+: more) :
    ∃ after', Dangles (number ++ more) number letter after' := by
  obtain ⟨hsplit, hmark, hnone, hdigit⟩ := h
  obtain ⟨last, rfl⟩ := hrest
  refine ⟨after ++ last, ?_, hmark, hnone, hdigit⟩
  rw [List.append_cancel_left hsplit, List.cons_append]

/-- **A lexeme is read where less follows it.** -/
theorem Lexeme.read_cut (h : read (text ++ more) = token kind text) (hkind : kind ≠ .endOfInput)
    (hrest : rest <+: more) : read (text ++ rest) = token kind text := by
  have hbegins := begins_read (text ++ more)
  rw [h] at hbegins
  obtain ⟨c, word, rfl⟩ := List.exists_cons_of_ne_nil (text_ne_nil_of_read h hkind)
  rw [List.cons_append] at hbegins ⊢
  cases hbegins with
  | symbol hsymbol => exact (Begins.symbol hsymbol).eq_read.symm
  | identifier hstart hlongest =>
    have hwhole : IsLongest identifiers ((c :: word) ++ more) (c :: word) := hlongest
    exact (Begins.identifier hstart (hwhole.cut hrest)).eq_read.symm
  | number hstart hlongest hnot =>
    have hwhole : IsLongest Literal.language ((c :: word) ++ more) (c :: word) := hlongest
    refine (Begins.number hstart (hwhole.cut hrest) ?_).eq_read.symm
    rintro ⟨letter, after, hdangles⟩
    have hdangles' : Literal.Dangles ((c :: word) ++ rest) (c :: word) letter after := hdangles
    obtain ⟨after', hextended⟩ := hdangles'.extend hrest
    exact hnot ⟨letter, after', hextended⟩

/-- Something is read where something is left. -/
theorem Lexeme.text_read_ne_nil (h : source ≠ []) : (read source).text ≠ [] := by
  have hbegins := begins_read source
  generalize read source = lexeme at hbegins
  cases hbegins with
  | endOfInput => exact absurd rfl h
  | identifier _ hlongest =>
    obtain ⟨c, rest, rfl, -⟩ := hlongest.mem
    exact List.cons_ne_nil _ _
  | number _ hlongest _ =>
    obtain ⟨c, rest, rfl, -⟩ := isNumberStart_of_mem hlongest.mem
    exact List.cons_ne_nil _ _
  | symbol | noNumber | unrecognized => exact List.cons_ne_nil _ _
  | dangling => exact List.append_ne_nil_of_right_ne_nil _ (List.cons_ne_nil _ _)

/-! ## Tokens of a slice -/

namespace TokenStream

/-- **Every token of a stream was read somewhere in the source**, and so was what
ends it. -/
theorem exists_cursor (h : cursor.place.In source) :
    (∀ token ∈ (ofCursor cursor).tokens,
      ∃ front : Cursor, front.place.In source ∧ front.nextToken.1 = .ok token) ∧
    ∃ front : Cursor, front.place.In source ∧ front.nextToken.1 = (ofCursor cursor).ending := by
  fun_induction ofCursor cursor with
  | case1 cursor error next hread =>
    exact ⟨List.forall_mem_nil _, cursor, h, congrArg Prod.fst hread⟩
  | case2 cursor token next hread hkind =>
    exact ⟨List.forall_mem_nil _, cursor, h, congrArg Prod.fst hread⟩
  | case3 cursor token next hread hkind hlt rest ih =>
    have hnext := Cursor.in_nextToken h
    rw [hread] at hnext
    obtain ⟨htokens, hending⟩ := ih hnext
    exact ⟨List.forall_mem_cons.2 ⟨⟨cursor, h, congrArg Prod.fst hread⟩, htokens⟩, hending⟩

/-- **A token is the slice of its span.** -/
theorem slice_of_mem {token : Token} (h : cursor.place.In source)
    (htoken : token ∈ (ofCursor cursor).tokens) :
    token.start < token.stop ∧ token.stop ≤ source.length ∧
      token.span.slice source = token.text.toList := by
  obtain ⟨front, hfront, hread⟩ := (exists_cursor h).1 token htoken
  have htiles := Cursor.tiles_nextToken hfront
  rw [hread] at htiles
  exact ⟨(ordered_ofCursor h).start_lt token htoken, htiles.stop_le, htiles.text_eq.symm⟩

/-- So is what is no token. -/
theorem slice_of_error {error : Located LexError} (h : cursor.place.In source)
    (hending : (ofCursor cursor).ending = .error error) :
    error.span.start < error.span.stop ∧ error.span.stop ≤ source.length ∧
      error.span.slice source = Reading.text (.error error) := by
  obtain ⟨front, hfront, hread⟩ := (exists_cursor h).2
  have htiles := Cursor.tiles_nextToken hfront
  rw [hread, hending] at htiles
  have htext : error.span.slice source = Reading.text (.error error) := htiles.text_eq.symm
  rw [hending, Cursor.nextToken_eq] at hread
  have hahead : front.skipBlanks.ahead ≠ [] := by
    intro hnil
    rw [hnil] at hread
    cases hread
  have hne : error.span.slice source ≠ [] := by
    rw [htext, ← hread, Lexeme.text_reading]
    exact Lexeme.text_read_ne_nil hahead
  exact ⟨Span.start_lt_stop hne, htiles.stop_le, htext⟩

/-- The end of the input is nothing at the end of the source. -/
theorem span_of_end {last : Token} (h : cursor.place.In source)
    (hending : (ofCursor cursor).ending = .ok last) : last.span = .empty source.length := by
  obtain ⟨front, hfront, hread⟩ := (exists_cursor h).2
  have htiles := Cursor.tiles_nextToken hfront
  rw [hread, hending] at htiles
  exact htiles.span_eq_empty ((kinds_ofCursor cursor).2 last hending)

/-- **The slice up to a token scans as the tokens up to it.** -/
theorem scans_slice (h : cursor.place.In source)
    (htokens : (ofCursor cursor).tokens = ts ++ last :: us) :
    Scans cursor.pos ((Span.mk cursor.pos last.stop).slice source) (ts ++ [last]) := by
  fun_induction ofCursor cursor generalizing ts with
  | case1 => exact absurd htokens (by simp)
  | case2 => exact absurd htokens (by simp)
  | case3 cursor first next hread hkind hlt rest =>
    rename_i ih
    have hnext := Cursor.in_nextToken h
    have htiles := Cursor.tiles_nextToken h
    rw [hread] at hnext htiles
    have hresume : next.pos = first.stop := htiles.after_eq
    have hbefore : cursor.pos ≤ first.start := htiles.before_le
    have hfirst : first.start ≤ first.stop := htiles.start_le
    -- Behind the first token stands a slice that scans as the others.
    obtain ⟨others, hothers, hle, hscans⟩ : ∃ others, ts ++ [last] = first :: others ∧
        first.stop ≤ last.stop ∧
        Scans first.stop ((Span.mk first.stop last.stop).slice source) others := by
      cases ts with
      | nil =>
        obtain ⟨rfl, -⟩ := List.cons.inj htokens
        exact ⟨[], rfl, Nat.le_refl _, .blanks (by simp [Span.slice])⟩
      | cons second ts =>
        obtain ⟨rfl, hrest⟩ := List.cons.inj htokens
        have hmem : last ∈ rest.tokens := by
          rw [hrest]
          exact List.mem_append_right _ List.mem_cons_self
        have hlast := (ordered_ofCursor hnext).start_le last hmem
        have hstop : last.start ≤ last.stop := Nat.le_add_right _ _
        have hscans := ih hnext hrest
        rw [hresume] at hlast hscans
        exact ⟨ts ++ [last], rfl, hlast.trans hstop, hscans⟩
    obtain ⟨-, more, -, -, hlexeme, -, -, hmore⟩ := Scans.split_of_nextToken hread
    have hcut : (Span.mk first.stop last.stop).slice source <+: more := by
      rw [← hmore, ← hresume, Cursor.ahead, hnext.2]
      exact Span.slice_begins _
    have hskipped : cursor.pos + ((Span.mk cursor.pos first.start).slice source).length =
        first.start := by
      rw [Span.length_slice (hfirst.trans htiles.stop_le)]
      exact Nat.add_sub_of_le hbefore
    have htext : first.text.toList = first.span.slice source := htiles.text_eq
    rw [hothers, ← Span.slice_append hbefore (hfirst.trans hle), ← Span.slice_append hfirst hle]
    have hbehind : Scans (cursor.pos + ((Span.mk cursor.pos first.start).slice source).length +
        first.text.toList.length) ((Span.mk first.stop last.stop).slice source) others := by
      rw [hskipped, String.length_toList]
      exact hscans
    have hblank : ∀ c ∈ (Span.mk cursor.pos first.start).slice source, Text.isBlank c :=
      htiles.blank
    have hslice := Scans.token hblank (Lexeme.read_cut hlexeme hkind hcut) hkind hbehind
    rw [hskipped, String.ofList_toList, htext] at hslice
    exact hslice

end TokenStream

namespace Scans

/-- **What scans from a token on** does so without what is before the token. -/
theorem drop (h : Scans pos source (ts ++ last :: us)) : ∃ before rest, source = before ++ rest ∧
    last.start = pos + before.length ∧ Scans last.start rest (last :: us) := by
  induction ts generalizing pos source with
  | nil =>
    rcases h with _ | @⟨_, gap, text, more, kind, _, _, hread, hkind, hmore⟩
    have hnone : ∀ c ∈ [], Text.isBlank c := nofun
    exact ⟨gap, text ++ more, rfl, rfl, .token hnone hread hkind hmore⟩
  | cons first ts ih =>
    rcases h with _ | @⟨_, gap, text, more, kind, _, _, hread, hkind, hmore⟩
    obtain ⟨before, rest, rfl, hstart, hscans⟩ := ih hmore
    refine ⟨gap ++ (text ++ before), rest, ?_, ?_, hscans⟩
    · simp only [List.append_assoc]
    · simp only [hstart, List.length_append, Nat.add_assoc]

/-- **Tokens are the same where their text is moved back.** -/
theorem unshift {n : Nat} (h : Scans (pos + n) source tokens) :
    ∃ tokens', Scans pos source tokens' ∧ tokens = tokens'.map (·.shift n) := by
  generalize hstart : pos + n = start at h
  induction h generalizing pos with
  | blanks hblank => exact ⟨[], .blanks hblank, rfl⟩
  | @token _ gap text more kind tokens hgap hread hkind _ ih =>
    subst hstart
    have hnext : pos + gap.length + text.length + n = pos + n + gap.length + text.length := by omega
    obtain ⟨tokens', hscans, rfl⟩ := ih hnext
    refine ⟨_, .token hgap hread hkind hscans, ?_⟩
    rw [List.map_cons, Token.shift, Nat.add_right_comm]

end Scans

/-- **A slice from one token to another scans on its own as the tokens of the source
between them**, moved to its start. -/
theorem TokenStream.scans_between {first : Token} {before after : List Token}
    (h : cursor.place.In source)
    (htokens : (ofCursor cursor).tokens = before ++ first :: (ts ++ last :: after)) :
    ∃ tokens', Scans 0 ((Span.mk first.start last.stop).slice source) tokens' ∧
      first :: (ts ++ [last]) = tokens'.map (·.shift first.start) := by
  have hsplit : (ofCursor cursor).tokens = (before ++ first :: ts) ++ last :: after := by
    rw [htokens, List.append_assoc, List.cons_append]
  have hwhole := scans_slice h hsplit
  rw [List.append_assoc, List.cons_append] at hwhole
  obtain ⟨front, rest, hfront, hstart, hscans⟩ := hwhole.drop
  have hslice : (Span.mk first.start last.stop).slice source = rest := by
    rw [Span.slice] at hfront ⊢
    rw [hstart, ← List.drop_drop, hfront, List.drop_left]
  rw [← Nat.zero_add first.start, ← hslice] at hscans
  exact hscans.unshift

end Calculator
