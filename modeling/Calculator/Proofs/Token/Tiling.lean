import Calculator.Proofs.Grammar.Run
import Calculator.Proofs.Token.Reading
/-!
# Reads tile the source

Any number of reads, also of reads that go on after errors, go over the
source from its start without a gap or an overlap (`readings_tile_source`).
The tokens of a stream therefore stand one after the other
(`TokenStream.ordered_ofCursor`), and with the blanks between them they are
the whole source (`TokenStream.interleave_gaps_ofCursor`).
-/

namespace Calculator

variable {source : List Char} {cursor : Cursor}

/-! ## Runs of reads -/

namespace Cursor

/-- The cursor after a number of reads. -/
def after (cursor : Cursor) : Nat → Cursor
  | 0 => cursor
  | n + 1 => (cursor.after n).nextToken.2

/-- The read that follows a number of reads. -/
def readingAfter (cursor : Cursor) (n : Nat) : Reading := (cursor.after n).nextToken.1

/-- No number of reads leaves the source. -/
theorem in_after (h : cursor.place.In source) (n : Nat) : (cursor.after n).place.In source := by
  induction n with
  | zero => exact h
  | succ n ih => exact in_nextToken ih

/-- **What lasts is read ever after.** -/
theorem nextToken_after_add {n : Nat} (h : Reading.Lasts (cursor.readingAfter n)) (k : Nat) :
    (cursor.after (n + k)).nextToken = (cursor.after n).nextToken := by
  induction k with
  | zero => rfl
  | succ k ih =>
    have hlasts : Reading.Lasts (cursor.after (n + k)).nextToken.1 := by rwa [ih]
    exact (nextToken_nextToken hlasts).trans ih

end Cursor

/-! ## Streams -/

namespace TokenStream

/-- **The tokens of a stream stand one after the other**, each with some text,
and what ends the stream stands after them. -/
structure Ordered (pos : Nat) (stream : TokenStream) : Prop where
  start_le : ∀ token ∈ stream.tokens, pos ≤ token.start
  start_lt : ∀ token ∈ stream.tokens, token.start < token.stop
  apart : stream.tokens.Pairwise fun token later => token.stop ≤ later.start
  le_ending : pos ≤ (Reading.span stream.ending).start
  stop_le_ending : ∀ token ∈ stream.tokens, token.stop ≤ (Reading.span stream.ending).start

/-- A stream whose first token stands before the rest is in order. -/
theorem Ordered.cons {pos : Nat} {token : Token} {stream : TokenStream}
    (hpos : pos ≤ token.start) (htoken : token.start < token.stop)
    (h : stream.Ordered token.stop) : Ordered pos ⟨token :: stream.tokens, stream.ending⟩ where
  start_le later hlater := by
    rcases List.mem_cons.1 hlater with rfl | hlater
    · exact hpos
    · have := h.start_le later hlater
      omega
  start_lt later hlater := by
    rcases List.mem_cons.1 hlater with rfl | hlater
    · exact htoken
    · exact h.start_lt later hlater
  apart := List.pairwise_cons.2 ⟨h.start_le, h.apart⟩
  le_ending := by
    have := h.le_ending
    dsimp only
    omega
  stop_le_ending later hlater := by
    rcases List.mem_cons.1 hlater with rfl | hlater
    · exact h.le_ending
    · exact h.stop_le_ending later hlater

/-- **The tokens ahead of a cursor are in order.** -/
theorem ordered_ofCursor (h : cursor.place.In source) : (ofCursor cursor).Ordered cursor.pos := by
  fun_induction ofCursor cursor with
  | case1 cursor error next hread =>
    have htiles := Cursor.tiles_nextToken h
    rw [hread] at htiles
    exact ⟨List.forall_mem_nil _, List.forall_mem_nil _, .nil, htiles.before_le,
      List.forall_mem_nil _⟩
  | case2 cursor token next hread hkind =>
    have htiles := Cursor.tiles_nextToken h
    rw [hread] at htiles
    exact ⟨List.forall_mem_nil _, List.forall_mem_nil _, .nil, htiles.before_le,
      List.forall_mem_nil _⟩
  | case3 cursor token next hread hkind hlt rest ih =>
    have htiles := Cursor.tiles_nextToken h
    have hnext := Cursor.in_nextToken h
    rw [hread] at htiles hnext
    have hresume : next.pos = token.stop := htiles.after_eq
    refine .cons htiles.before_le (Cursor.start_lt_stop hread hkind) ?_
    rw [← hresume]
    exact ih hnext

/-! ## Telling tokens by their positions -/

/-- The tokens of a stream, with the end of the input if the stream has come to it. -/
def all (stream : TokenStream) : List Token :=
  stream.tokens ++ stream.ending.toOption.toList

/-- **No two tokens of a source begin at one position.** -/
theorem Ordered.pairwise_start_lt {pos : Nat} {stream : TokenStream}
    (h : stream.Ordered pos) :
    stream.all.Pairwise fun token later => token.start < later.start := by
  refine List.pairwise_append.2 ⟨?_, ?_, fun token htoken last hlast => ?_⟩
  · refine h.apart.imp_of_mem fun htoken _ hapart => ?_
    exact Nat.lt_of_lt_of_le (h.start_lt _ htoken) hapart
  · cases stream.ending with
    | error error => exact .nil
    | ok last => exact List.pairwise_singleton _ _
  · have hstop := h.stop_le_ending token htoken
    have hstart := h.start_lt token htoken
    cases hending : stream.ending with
    | error error => simp [hending, Except.toOption] at hlast
    | ok ending =>
      obtain rfl : last = ending := by simpa [hending, Except.toOption] using hlast
      rw [hending] at hstop
      exact Nat.lt_of_lt_of_le hstart hstop

/-- So a position tells a token, and what is before it. -/
theorem eq_of_append_cons_eq {token token' : Token} {before before' rest rest' : List Token}
    (hpairwise : (before ++ token :: rest).Pairwise fun token later => token.start < later.start)
    (h : before ++ token :: rest = before' ++ token' :: rest')
    (hstart : token.start = token'.start) : before = before' ∧ token = token' := by
  induction before generalizing before' with
  | nil =>
    cases before' with
    | nil => exact ⟨rfl, (List.cons.inj h).1⟩
    | cons first before' =>
      obtain ⟨rfl, rfl⟩ := List.cons.inj h
      have hlt : token.start < token'.start := List.rel_of_pairwise_cons hpairwise (by simp)
      omega
  | cons first before ih =>
    cases before' with
    | nil =>
      obtain ⟨rfl, rfl⟩ := List.cons.inj h
      have hlt : first.start < token.start := List.rel_of_pairwise_cons hpairwise (by simp)
      omega
    | cons first' before' =>
      obtain ⟨rfl, htail⟩ := List.cons.inj h
      obtain ⟨rfl, rfl⟩ := ih (List.pairwise_cons.1 hpairwise).2 htail
      exact ⟨rfl, rfl⟩

/-! ## What the tokens leave -/

/-- The pieces of a source between tokens, the first of which begins at a position. -/
def gaps (source : List Char) : Nat → List Token → List (List Char)
  | _, [] => []
  | pos, token :: tokens =>
    (Span.mk pos token.start).slice source :: gaps source token.stop tokens

/-- There are as many as there are tokens. -/
theorem length_gaps (pos : Nat) (tokens : List Token) :
    (gaps source pos tokens).length = tokens.length := by
  induction tokens generalizing pos with
  | nil => rfl
  | cons token tokens ih => simp [gaps, ih]

/-- Pieces between tokens, each with the token after it, laid end to end. -/
def interleave (gaps : List (List Char)) (tokens : List Token) : List Char :=
  (List.zipWith (fun gap token => gap ++ token.text.toList) gaps tokens).flatten

theorem interleave_cons {gap : List Char} {pieces : List (List Char)} {token : Token}
    {tokens : List Token} : interleave (gap :: pieces) (token :: tokens) =
      gap ++ (token.text.toList ++ interleave pieces tokens) := by
  simp [interleave]

/-- **The blanks between tokens and the tokens are all that is ahead** of a
cursor, if the stream ends well. -/
theorem interleave_gaps_ofCursor {last : Token} (h : cursor.place.In source)
    (hlast : (ofCursor cursor).ending = .ok last) :
    (∀ gap ∈ gaps source cursor.pos ((ofCursor cursor).tokens ++ [last]),
        ∀ c ∈ gap, Text.isBlank c) ∧
      interleave (gaps source cursor.pos ((ofCursor cursor).tokens ++ [last]))
        ((ofCursor cursor).tokens ++ [last]) = source.drop cursor.pos := by
  fun_induction ofCursor cursor with
  | case1 cursor error next hread => cases hlast
  | case2 cursor token next hread hkind =>
    cases hlast
    have htiles := Cursor.tiles_nextToken h
    rw [hread] at htiles
    have hstop : last.stop = source.length := congrArg Span.stop (htiles.span_eq_empty hkind)
    have hsplit := htiles.split
    rw [hstop, List.drop_length] at hsplit
    refine ⟨?_, ?_⟩
    · rw [List.nil_append, gaps, gaps]
      exact List.forall_mem_singleton.2 htiles.blank
    · rw [List.nil_append, gaps, interleave_cons]
      exact hsplit
  | case3 cursor token next hread hkind hlt rest ih =>
    have htiles := Cursor.tiles_nextToken h
    have hnext := Cursor.in_nextToken h
    rw [hread] at htiles hnext
    have hresume : next.pos = token.stop := htiles.after_eq
    obtain ⟨hblank, hrest⟩ := ih hnext hlast
    rw [hresume] at hblank hrest
    refine ⟨?_, ?_⟩
    · rw [List.cons_append, gaps]
      exact List.forall_mem_cons.2 ⟨htiles.blank, hblank⟩
    · rw [List.cons_append, gaps, interleave_cons, ← htiles.split]
      exact congrArg _ (congrArg _ hrest)

end TokenStream

/-- **Reads tile the source.** Each read begins where the one before it left
off, skips blanks only and takes a slice; what lasts is read ever after. So
the tokens of a source, with the blanks before each, are the source. -/
theorem readings_tile_source (source : String) :
    (Cursor.ofString source).pos = 0 ∧
      (∀ i, Reading.Tiles source.toList ((Cursor.ofString source).after i).pos
          ((Cursor.ofString source).after (i + 1)).pos ((Cursor.ofString source).readingAfter i) ∧
        (Reading.Lasts ((Cursor.ofString source).readingAfter i) → ∀ k,
          (Cursor.ofString source).readingAfter (i + k) =
            (Cursor.ofString source).readingAfter i)) ∧
      ∀ tokens, tokenize source = .ok tokens →
        (TokenStream.gaps source.toList 0 tokens).length = tokens.length ∧
          (∀ gap ∈ TokenStream.gaps source.toList 0 tokens, ∀ c ∈ gap, Text.isBlank c) ∧
          TokenStream.interleave (TokenStream.gaps source.toList 0 tokens) tokens =
            source.toList := by
  have hstart : (Cursor.ofString source).place.In source.toList := ⟨Nat.zero_le _, rfl⟩
  refine ⟨rfl, fun i => ⟨?_, fun hlasts k => ?_⟩, fun tokens htokens => ?_⟩
  · exact Cursor.tiles_nextToken (Cursor.in_after hstart i)
  · exact congrArg Prod.fst (Cursor.nextToken_after_add hlasts k)
  · unfold tokenize TokenStream.toExcept TokenStream.ofString at htokens
    cases hlast : (TokenStream.ofCursor (.ofString source)).ending with
    | error error =>
      rw [hlast] at htokens
      cases htokens
    | ok last =>
      rw [hlast] at htokens
      cases htokens
      exact ⟨TokenStream.length_gaps _ _, TokenStream.interleave_gaps_ofCursor hstart hlast⟩

/-- Reading goes on behind a number that is malformed, and stays before a
character that begins no token. -/
theorem readings_tile_errors :
    (Cursor.ofString " 2e+x é").readingAfter 0 =
        .error ⟨.malformedNumber "2e+", 1, 4⟩ ∧
      (Cursor.ofString " 2e+x é").readingAfter 1 = .ok ⟨.identifier, 4, "x"⟩ ∧
      (∀ k, (Cursor.ofString " 2e+x é").readingAfter (2 + k) =
        .error ⟨.unrecognized 'é', 6, 7⟩) ∧
      Reading.Tiles " 2e+x é".toList 5 6 (.error ⟨.unrecognized 'é', 6, 7⟩) := by
  have hlast : (Cursor.ofString " 2e+x é").readingAfter 2 =
      .error ⟨.unrecognized 'é', 6, 7⟩ := by
    cbv
  obtain ⟨-, hreads, -⟩ := readings_tile_source " 2e+x é"
  obtain ⟨htiles, hlasts⟩ := hreads 2
  rw [hlast] at htiles hlasts
  refine ⟨by cbv, by cbv, hlasts trivial, ?_⟩
  have hbefore : ((Cursor.ofString " 2e+x é").after 2).pos = 5 := by cbv
  have hafter : ((Cursor.ofString " 2e+x é").after 3).pos = 6 := by cbv
  rwa [hbefore, hafter] at htiles

end Calculator
