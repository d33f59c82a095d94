import Calculator.Proofs.Number.Language
import Calculator.Proofs.Source.Place
import Calculator.Token.Stream
/-!
# One read

A read skips the longest run of blanks and takes the lexeme that stands
behind it. `Cursor.nextToken_eq` says so in one equation, and
`Reading.Tiles` says where the read leaves the source: what was skipped is
blank, what was taken is the slice of its span, and reading resumes behind
it (`Cursor.tiles_nextToken`), except before a character that begins no
token. Such a character and the end of the input are met again by every
later read (`Cursor.nextToken_nextToken`).
-/

namespace Calculator

/-- **What a read gives**: a token, or what stands in its place. -/
abbrev Reading := Except (Located LexError) Token

namespace Reading

/-- The characters a read is about. -/
def span : Reading → Span
  | .ok token => token.span
  | .error error => error.span

/-- The text a read is about. -/
def text : Reading → List Char
  | .ok token => token.text.toList
  | .error ⟨.malformedNumber text, _⟩ => text.toList
  | .error ⟨.unrecognized c, _⟩ => [c]

/-- Where the next read begins: after what was read, unless that begins no token. -/
def resume : Reading → Nat
  | .error ⟨.unrecognized _, span⟩ => span.start
  | .error ⟨.malformedNumber _, span⟩ => span.stop
  | .ok token => token.stop

/-- Every later read gives the same again. -/
def Lasts : Reading → Prop
  | .ok token => token.kind = .endOfInput
  | .error ⟨.unrecognized _, _⟩ => True
  | .error ⟨.malformedNumber _, _⟩ => False

end Reading

namespace Lexeme

/-- The text of a lexeme. -/
def text : Lexeme → List Char
  | token _ text => text
  | malformed text => text
  | unrecognized c => [c]

/-- How many characters are gone over. -/
def width : Lexeme → Nat
  | token _ text => text.length
  | malformed text => text.length
  | unrecognized _ => 0

/-- What the read of a lexeme gives at a position. -/
def reading (pos : Nat) : Lexeme → Reading
  | token kind text => .ok ⟨kind, pos, .ofList text⟩
  | malformed text => .error ⟨.malformedNumber (.ofList text), pos, pos + text.length⟩
  | unrecognized c => .error ⟨.unrecognized c, .single pos⟩

@[simp] theorem span_reading (pos : Nat) (lexeme : Lexeme) :
    (lexeme.reading pos).span = ⟨pos, pos + lexeme.text.length⟩ := by
  cases lexeme <;> simp [reading, Reading.span, Token.span, Token.stop, text, Span.single]

@[simp] theorem text_reading (pos : Nat) (lexeme : Lexeme) :
    (lexeme.reading pos).text = lexeme.text := by
  cases lexeme <;> simp [reading, Reading.text, text]

@[simp] theorem resume_reading (pos : Nat) (lexeme : Lexeme) :
    (lexeme.reading pos).resume = pos + lexeme.width := by
  cases lexeme <;> simp [reading, Reading.resume, Token.stop, width, Span.single]

/-- A read gives a token where one stands. -/
theorem eq_token_of_reading {pos : Nat} {lexeme : Lexeme} {read : Token}
    (h : lexeme.reading pos = .ok read) :
    lexeme = token read.kind read.text.toList ∧ read.start = pos := by
  cases lexeme with
  | token kind text =>
    cases h
    simp
  | malformed text => cases h
  | unrecognized c => cases h

/-- No more is gone over than was read. -/
theorem width_le (lexeme : Lexeme) : lexeme.width ≤ lexeme.text.length := by
  cases lexeme <;> simp [width, text]

/-- **What is read is what the text begins with.** -/
theorem text_read_begins (source : List Char) : (read source).text <+: source := by
  unfold read
  split
  · exact List.nil_prefix
  · split
    · simp [text]
    · split
      · dsimp only
        split <;> exact Literal.text_read_begins _
      · split
        · exact List.takeWhile_prefix _
        · simp [text]

/-- The end of the input is read where nothing is left, and only there. -/
theorem kind_read_iff {source text : List Char} {kind : Kind} (h : read source = token kind text) :
    kind = .endOfInput ↔ source = [] := by
  constructor
  · rintro rfl
    unfold read at h
    split at h
    · rfl
    · split at h
      · rename_i hkind
        cases h
        cases Kind.ofChar?_eq_some.1 hkind
      · split at h
        · dsimp only at h
          split at h <;> cases h
        · split at h <;> cases h
  · rintro rfl
    cases h
    rfl

end Lexeme

/-! ## Blanks, and what follows them -/

variable {source : List Char}

namespace Cursor

variable {cursor : Cursor}

/-- The blanks ahead are gone over, all of them. -/
theorem pos_skipBlanks (cursor : Cursor) :
    cursor.skipBlanks.pos = cursor.pos + (cursor.ahead.takeWhile Text.isBlank).length := by
  have hbegins : cursor.ahead.takeWhile Text.isBlank <+: cursor.ahead := List.takeWhile_prefix _
  exact Place.pos_advance hbegins.length_le

/-- What follows them is ahead then. -/
theorem ahead_skipBlanks (cursor : Cursor) :
    cursor.skipBlanks.ahead = cursor.ahead.dropWhile Text.isBlank := by
  have hbegins : cursor.ahead.takeWhile Text.isBlank <+: cursor.ahead := List.takeWhile_prefix _
  have hdrop := List.prefix_iff_eq_append.1 hbegins
  exact List.append_cancel_left (hdrop.trans List.takeWhile_append_dropWhile.symm)

/-- It does not begin with a blank. -/
theorem not_isBlank_skipBlanks (cursor : Cursor) :
    ∀ c ∈ cursor.skipBlanks.ahead.head?, ¬ Text.isBlank c := by
  intro c hc
  have hstop := List.head?_dropWhile_not Text.isBlank cursor.ahead
  rw [← ahead_skipBlanks, Option.mem_def.1 hc] at hstop
  simpa using hstop

/-- So there are no blanks to skip again. -/
@[simp] theorem skipBlanks_skipBlanks (cursor : Cursor) :
    cursor.skipBlanks.skipBlanks = cursor.skipBlanks := by
  have hnone : cursor.skipBlanks.ahead.takeWhile Text.isBlank = [] := by
    have hstop := cursor.not_isBlank_skipBlanks
    cases hahead : cursor.skipBlanks.ahead with
    | nil => rfl
    | cons c rest =>
      rw [hahead] at hstop
      simp [hstop c rfl]
  rw [skipBlanks, takeWhile, hnone]
  simp [advance]

/-- Skipping blanks stays in the source. -/
theorem in_skipBlanks (h : cursor.place.In source) : cursor.skipBlanks.place.In source :=
  h.advance _

/-- **One read**: the blanks are skipped, and what is read there is gone over. -/
theorem nextToken_eq (cursor : Cursor) :
    cursor.nextToken = ((Lexeme.read cursor.skipBlanks.ahead).reading cursor.skipBlanks.pos,
      cursor.skipBlanks.advance (Lexeme.read cursor.skipBlanks.ahead).width) := by
  unfold nextToken
  dsimp only
  split <;> rename_i h <;> rw [h]
  · rfl
  · rfl
  · simp [Lexeme.reading, Lexeme.width, advance]

/-- A read stays in the source. -/
theorem in_nextToken (h : cursor.place.In source) : cursor.nextToken.2.place.In source := by
  rw [nextToken_eq]
  exact (in_skipBlanks h).advance _

end Cursor

/-! ## Where a read leaves the source -/

/-- **What a read does between two positions** of a source. -/
structure Reading.Tiles (source : List Char) (before after : Nat) (reading : Reading) : Prop where
  /-- Nothing before the position is read again. -/
  before_le : before ≤ reading.span.start
  start_le : reading.span.start ≤ reading.span.stop
  stop_le : reading.span.stop ≤ source.length
  /-- What is skipped is blank. -/
  blank : ∀ c ∈ (Span.mk before reading.span.start).slice source, Text.isBlank c
  /-- Nothing else that is blank comes next. -/
  not_blank : ∀ c ∈ source[reading.span.start]?, ¬ Text.isBlank c
  /-- What is read is what stands there. -/
  text_eq : reading.text = reading.span.slice source
  /-- Reading goes on behind it, unless it begins no token. -/
  after_eq : after = reading.resume
  /-- The end of the input is read at the end of the source, and only there. -/
  ends : ∀ token, reading = .ok token →
    (token.kind = .endOfInput ↔ token.start = source.length)

/-- What is left before a token is what was skipped, the token, and what is
left after it. -/
theorem Reading.Tiles.split {before after : Nat} {token : Token}
    (h : Reading.Tiles source before after (.ok token)) :
    (Span.mk before token.start).slice source ++ (token.text.toList ++ source.drop token.stop) =
      source.drop before := by
  have htext : token.text.toList = token.span.slice source := h.text_eq
  have hstart : token.start ≤ token.stop := h.start_le
  have hbefore : before ≤ token.start := h.before_le
  rw [htext, Token.span, Span.slice_append_drop hstart, Span.slice_append_drop hbefore]

/-- The end of the input holds nothing and stands at the end of the source. -/
theorem Reading.Tiles.span_eq_empty {before after : Nat} {token : Token}
    (h : Reading.Tiles source before after (.ok token)) (hkind : token.kind = .endOfInput) :
    token.span = .empty source.length := by
  have hstart : token.start = source.length := (h.ends token rfl).1 hkind
  have hle : token.start ≤ token.stop := h.start_le
  have hstop : token.stop ≤ source.length := h.stop_le
  rw [Token.span, Span.empty, Span.mk.injEq]
  omega

namespace Cursor

variable {cursor : Cursor}

/-- **A read tiles what it goes over.** -/
theorem tiles_nextToken (h : cursor.place.In source) :
    Reading.Tiles source cursor.pos cursor.nextToken.2.pos cursor.nextToken.1 := by
  have hfront := in_skipBlanks h
  have hpos := cursor.pos_skipBlanks
  have hbegins := Lexeme.text_read_begins cursor.skipBlanks.ahead
  have hwidth := (Lexeme.read cursor.skipBlanks.ahead).width_le
  obtain ⟨hslice, hstop⟩ := hfront.slice_eq hbegins
  rw [nextToken_eq]
  refine ⟨?_, ?_, ?_, ?_, ?_, ?_, ?_, ?_⟩
  · rw [Lexeme.span_reading]
    dsimp only
    omega
  · rw [Lexeme.span_reading]
    exact Nat.le_add_right _ _
  · rw [Lexeme.span_reading]
    exact hstop
  · have hskip : cursor.ahead.takeWhile Text.isBlank <+: cursor.ahead := List.takeWhile_prefix _
    rw [Lexeme.span_reading]
    dsimp only
    rw [hpos, pos, (h.slice_eq hskip).1]
    exact List.all_eq_true.1 List.all_takeWhile
  · rw [Lexeme.span_reading]
    have hhead : cursor.skipBlanks.ahead.head? = source[cursor.skipBlanks.pos]? := by
      rw [ahead, hfront.2, List.head?_drop]
      rfl
    rw [← hhead]
    exact cursor.not_isBlank_skipBlanks
  · rw [Lexeme.text_reading, Lexeme.span_reading]
    exact hslice.symm
  · rw [Lexeme.resume_reading]
    exact Place.pos_advance (hwidth.trans hbegins.length_le)
  · intro token htoken
    obtain ⟨hread, hstart⟩ := Lexeme.eq_token_of_reading htoken
    rw [hstart]
    exact (Lexeme.kind_read_iff hread).trans hfront.ahead_eq_nil_iff

/-- **A token has text**, unless it is the end of the input. -/
theorem start_lt_stop {token : Token} {next : Cursor} (h : cursor.nextToken = (.ok token, next))
    (hkind : token.kind ≠ .endOfInput) : token.start < token.stop := by
  rw [nextToken_eq] at h
  obtain ⟨hread, -⟩ := Lexeme.eq_token_of_reading (congrArg Prod.fst h)
  have htext := Lexeme.text_ne_nil_of_read hread hkind
  rw [Token.stop, ← String.length_toList]
  exact Nat.lt_add_of_pos_right (List.length_pos_iff.2 htext)

/-- A read that gives the same again goes over blanks only. -/
theorem nextToken_snd_of_lasts (h : Reading.Lasts cursor.nextToken.1) :
    cursor.nextToken.2 = cursor.skipBlanks := by
  rw [nextToken_eq] at h ⊢
  cases hread : Lexeme.read cursor.skipBlanks.ahead with
  | token kind text =>
    rw [hread] at h
    have hnil := (Lexeme.kind_read_iff hread).1 h
    rw [hnil] at hread
    cases hread
    simp [Lexeme.width, advance]
  | malformed text =>
    rw [hread] at h
    cases h
  | unrecognized c => simp [Lexeme.width, advance]

/-- **It is met again by the next read.** -/
theorem nextToken_nextToken (h : Reading.Lasts cursor.nextToken.1) :
    cursor.nextToken.2.nextToken = cursor.nextToken := by
  rw [nextToken_snd_of_lasts h]
  simp only [nextToken_eq, skipBlanks_skipBlanks]

end Cursor

end Calculator
