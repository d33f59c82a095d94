import Calculator.Proofs.Grammar.Run
import Calculator.Proofs.Token.Boundary
/-!
# Scans

A text that stands at a position scans as tokens if it is blanks and lexemes,
each the longest where it stands. A source has tokens if it scans as them, and
then they are followed by the end of the input (`tokenize_eq_ok_iff`). Texts that
scan can be put together: one after the other, where the second begins at a
boundary (`Scans.append`), and words that bear to be followed by what is there
(`Scans.word`). Moving a text moves its tokens (`Scans.shift`).
-/

namespace Calculator

/-- **The text, from this position on, is these tokens** with blanks between them. -/
inductive Scans : Nat → List Char → List Token → Prop
  | blanks {pos : Nat} {gap : List Char} : (∀ c ∈ gap, Text.isBlank c) → Scans pos gap []
  | token {pos : Nat} {gap text more : List Char} {kind : Kind} {tokens : List Token} :
      (∀ c ∈ gap, Text.isBlank c) → Lexeme.read (text ++ more) = .token kind text →
      kind ≠ .endOfInput → Scans (pos + gap.length + text.length) more tokens →
      Scans pos (gap ++ (text ++ more)) (⟨kind, pos + gap.length, .ofList text⟩ :: tokens)

variable {pos : Nat} {source rest gap text more : List Char} {tokens tokens' : List Token}
variable {kind : Kind} {cursor : Cursor}

/-! ## Sources that have tokens -/

namespace Scans

/-- A lexeme does not begin with a blank. -/
theorem not_isBlank_of_read (hread : Lexeme.read (text ++ more) = .token kind text)
    (hkind : kind ≠ .endOfInput) : ∀ c ∈ (text ++ more).head?, Text.isBlank c = false := by
  have hword := Lexeme.isWord_of_read hread hkind
  obtain ⟨c, word, rfl⟩ := List.exists_cons_of_ne_nil hword.ne_nil
  exact hword.not_isBlank

/-- So the blanks before it are all that is skipped. -/
theorem skipBlanks_gap (hgap : ∀ c ∈ gap, Text.isBlank c)
    (hsource : ∀ c ∈ source.head?, Text.isBlank c = false) (hahead : cursor.ahead = gap ++ source) :
    cursor.skipBlanks.pos = cursor.pos + gap.length ∧ cursor.skipBlanks.ahead = source := by
  have htake : gap.takeWhile Text.isBlank = gap := List.takeWhile_eq_self_iff.2 hgap
  have hdrop : gap.dropWhile Text.isBlank = [] := List.dropWhile_eq_nil_iff.2 hgap
  constructor
  · rw [Cursor.pos_skipBlanks, hahead, takeWhile_append_of_stop gap hsource, htake]
  · rw [Cursor.ahead_skipBlanks, hahead, dropWhile_append_of_stop gap hsource, hdrop,
      List.nil_append]

/-- A text that is ahead is gone over by its length. -/
theorem advance_text (hahead : cursor.ahead = text ++ more) :
    (cursor.advance text.length).pos = cursor.pos + text.length ∧
      (cursor.advance text.length).ahead = more := by
  have hle : text.length ≤ cursor.ahead.length := by
    rw [hahead, List.length_append]
    exact Nat.le_add_right _ _
  refine ⟨Place.pos_advance hle, ?_⟩
  show cursor.ahead.drop text.length = more
  rw [hahead, List.drop_left]

/-- **What scans is read token by token**, up to the end of the input. -/
theorem ofCursor_eq (h : Scans cursor.pos cursor.ahead tokens) :
    TokenStream.ofCursor cursor =
      ⟨tokens, .ok ⟨.endOfInput, cursor.pos + cursor.ahead.length, ""⟩⟩ := by
  -- On the scan, for whatever cursor stands before it: a read leaves one that stands further on.
  generalize hpos : cursor.pos = pos at h
  generalize hahead : cursor.ahead = source at h
  induction h generalizing cursor with
  | @blanks pos gap hgap =>
    have hnone : ∀ c ∈ ([] : List Char).head?, Text.isBlank c = false := nofun
    obtain ⟨hfront, hend⟩ := skipBlanks_gap hgap hnone (hahead.trans gap.append_nil.symm)
    have hnext : cursor.nextToken =
        (.ok ⟨.endOfInput, pos + gap.length, ""⟩, cursor.skipBlanks.advance 0) := by
      rw [Cursor.nextToken_eq, hend, hfront, hpos]
      rfl
    exact TokenStream.ofCursor_of_end hnext rfl
  | @token pos gap text more kind tokens hgap hread hkind _ ih =>
    obtain ⟨hfront, hend⟩ := skipBlanks_gap hgap (not_isBlank_of_read hread hkind) hahead
    have hnext : cursor.nextToken = (.ok ⟨kind, pos + gap.length, .ofList text⟩,
        cursor.skipBlanks.advance text.length) := by
      rw [Cursor.nextToken_eq, hend, hread, hfront, hpos]
      rfl
    obtain ⟨hpos', hahead'⟩ := advance_text hend
    rw [hfront, hpos] at hpos'
    rw [TokenStream.ofCursor_of_token hnext hkind, ih hpos' hahead']
    simp only [List.length_append, Nat.add_assoc]

/-- A token is read where it stands, behind the blanks before it. -/
theorem split_of_nextToken {token : Token} {next : Cursor}
    (h : cursor.nextToken = (.ok token, next)) :
    ∃ gap more, cursor.ahead = gap ++ (token.text.toList ++ more) ∧
      (∀ c ∈ gap, Text.isBlank c) ∧
      Lexeme.read (token.text.toList ++ more) = .token token.kind token.text.toList ∧
      token.start = cursor.pos + gap.length ∧
      next.pos = token.start + token.text.toList.length ∧ next.ahead = more := by
  rw [Cursor.nextToken_eq, Prod.mk.injEq] at h
  obtain ⟨hread, hstart⟩ := Lexeme.eq_token_of_reading h.1
  have hbegins := Lexeme.text_read_begins cursor.skipBlanks.ahead
  rw [hread] at h hbegins
  obtain ⟨more, hmore⟩ : token.text.toList <+: cursor.skipBlanks.ahead := hbegins
  obtain ⟨hpos, hahead⟩ := advance_text hmore.symm
  refine ⟨cursor.ahead.takeWhile Text.isBlank, more, ?_, List.all_eq_true.1 List.all_takeWhile,
    hmore ▸ hread, hstart.trans cursor.pos_skipBlanks, ?_, ?_⟩
  · rw [hmore, Cursor.ahead_skipBlanks, List.takeWhile_append_dropWhile]
  · rw [← h.2, hstart]
    exact hpos
  · rw [← h.2]
    exact hahead

/-- **And what is read token by token scans**, if no error ends it. -/
theorem of_ending {last : Token} (h : (TokenStream.ofCursor cursor).ending = .ok last) :
    Scans cursor.pos cursor.ahead (TokenStream.ofCursor cursor).tokens := by
  fun_induction TokenStream.ofCursor cursor with
  | case1 => cases h
  | case2 cursor token next hnext hkind =>
    rw [Cursor.nextToken_eq] at hnext
    obtain ⟨hread, -⟩ := Lexeme.eq_token_of_reading (congrArg Prod.fst hnext)
    have hnil := (Lexeme.kind_read_iff hread).1 hkind
    rw [Cursor.ahead_skipBlanks, List.dropWhile_eq_nil_iff] at hnil
    exact .blanks hnil
  | case3 cursor token next hnext hkind hlt rest ih =>
    obtain ⟨gap, more, hahead, hgap, hread, hstart, hpos, hmore⟩ := split_of_nextToken hnext
    have hscans := ih h
    rw [hpos, hstart, hmore] at hscans
    have htoken := Scans.token hgap hread hkind hscans
    rw [← hahead, ← hstart, String.ofList_toList] at htoken
    exact htoken

end Scans

/-- **The tokens of a source are what it scans as**, and the end of the input,
which is nothing at the end of the source. -/
theorem tokenize_eq_ok_iff {source : String} {all : List Token} : tokenize source = .ok all ↔
    ∃ tokens, Scans 0 source.toList tokens ∧
      all = tokens ++ [⟨.endOfInput, source.length, ""⟩] := by
  have hall (tokens : List Token) (h : Scans 0 source.toList tokens) :
      tokenize source = .ok (tokens ++ [⟨.endOfInput, source.length, ""⟩]) := by
    have hscans : Scans (Cursor.ofString source).pos (Cursor.ofString source).ahead tokens := h
    have hstream := hscans.ofCursor_eq
    rw [tokenize, TokenStream.ofString, hstream]
    show _ = Except.ok _
    rw [← String.length_toList, ← Nat.zero_add source.toList.length]
    rfl
  constructor
  · intro h
    cases hending : (TokenStream.ofString source).ending with
    | error error =>
      rw [tokenize, TokenStream.toExcept, hending] at h
      cases h
    | ok last =>
      have hscans : Scans 0 source.toList _ := Scans.of_ending hending
      rw [hall _ hscans] at h
      exact ⟨_, hscans, (Except.ok.inj h).symm⟩
  · rintro ⟨tokens, hscans, rfl⟩
    exact hall tokens hscans

/-! ## Putting texts together -/

namespace Scans

/-- Blanks may precede what scans. -/
theorem indent (hgap : ∀ c ∈ gap, Text.isBlank c) (h : Scans (pos + gap.length) source tokens) :
    Scans pos (gap ++ source) tokens := by
  generalize hstart : pos + gap.length = start at h
  cases h with
  | blanks hblank => exact .blanks (List.forall_mem_append.2 ⟨hgap, hblank⟩)
  | @token _ more text after kind tokens hmore hread hkind hrest =>
    subst hstart
    rw [Nat.add_assoc pos, ← List.length_append] at hrest ⊢
    rw [← List.append_assoc]
    exact .token (List.forall_mem_append.2 ⟨hgap, hmore⟩) hread hkind hrest

/-- **A word may precede what scans**, if it is not gone on with there. -/
theorem word (hword : Lexeme.IsWord kind text)
    (hrest : kind.symbol? ≠ none ∨ Lexeme.Bounds source)
    (h : Scans (pos + text.length) source tokens) :
    Scans pos (text ++ source) (⟨kind, pos, .ofList text⟩ :: tokens) := by
  have hnone : ∀ c ∈ [], Text.isBlank c := nofun
  exact .token hnone (hword.read_append hrest) hword.kind_ne h

/-- A symbol may precede anything. -/
theorem symbol {c : Char} (hsymbol : kind.symbol? = some c) (h : Scans (pos + 1) source tokens) :
    Scans pos (c :: source) (⟨kind, pos, .ofList [c]⟩ :: tokens) := by
  have hword : Lexeme.IsWord kind [c] := .symbol hsymbol
  exact .word hword (.inl (by simp [hsymbol])) h

/-- **Texts that scan may stand one after the other** where the second begins
at a boundary. -/
theorem append (h : Scans pos source tokens) (h' : Scans (pos + source.length) rest tokens')
    (hrest : Lexeme.Bounds rest) : Scans pos (source ++ rest) (tokens ++ tokens') := by
  -- A lexeme that could see as far as the rest ends there, so it is read as before.
  induction h with
  | blanks hblank => exact .indent hblank h'
  | @token pos gap text more kind tokens hgap hread hkind _ ih =>
    have hread' := Lexeme.read_append hread hkind hrest
    have hmore := ih (by simpa only [List.length_append, Nat.add_assoc] using h')
    rw [List.append_assoc] at hread'
    rw [List.append_assoc, List.append_assoc]
    exact .token hgap hread' hkind hmore

end Scans

/-- The token, this much further on. -/
def Token.shift (token : Token) (n : Nat) : Token := { token with start := token.start + n }

/-- **A text that is moved scans as the same tokens**, moved with it. -/
theorem Scans.shift (h : Scans pos source tokens) (n : Nat) :
    Scans (pos + n) source (tokens.map (·.shift n)) := by
  induction h with
  | blanks hblank => exact .blanks hblank
  | @token pos gap text more kind tokens hgap hread hkind _ ih =>
    have hmore : Scans (pos + n + gap.length + text.length) more (tokens.map (·.shift n)) := by
      simpa only [Nat.add_right_comm _ n] using ih
    have htoken := Scans.token hgap hread hkind hmore
    rw [Nat.add_right_comm] at htoken
    exact htoken

end Calculator
