import Calculator.Number.Literal
import Calculator.Source.Cursor
import Calculator.Text.Blank
import Calculator.Token
/-!
# Reading a token

`Lexeme.read` says what the characters ahead begin with, and how many of
them belong to it; what follows a token does not begin with more of it,
since it takes the longest run. `Cursor.nextToken` skips the blanks, reads
one lexeme and goes over it. A malformed number is gone over too, while a
character that begins no token stays ahead, so every later read meets it
again. `Cursor.peekToken` reads a token and returns to where it began.

A token other than the end leaves less ahead (`length_ahead_nextToken`),
which is what makes reading end.
-/

namespace Calculator

/-- The source holds something that is no token. -/
inductive LexError where
  /-- The character begins no token. -/
  | unrecognized (character : Char)
  /-- The text begins as a number and is none. -/
  | malformedNumber (text : String)
deriving DecidableEq, Repr

/-- The text of a lexical error. -/
def LexError.message : LexError → String
  | unrecognized character => "unrecognized character `" ++ character.toString ++ "`"
  | malformedNumber text => "malformed number `" ++ text ++ "`"

/-- What the characters ahead begin with, blanks being skipped. -/
inductive Lexeme where
  /-- A token, whose text is empty at the end of the input. -/
  | token (kind : Kind) (text : List Char)
  /-- The parts of a number that are not one together. -/
  | malformed (text : List Char)
  /-- A character that begins no token. -/
  | unrecognized (character : Char)
deriving DecidableEq, Repr

namespace Lexeme

/-- An identifier begins with a letter of ASCII or an underscore. -/
def isIdentifierStart (c : Char) : Bool := c.isAlpha || c == '_'

/-- It goes on with these and digits. -/
def isIdentifierPart (c : Char) : Bool := c.isAlphanum || c == '_'

/-- A number begins with a digit or the decimal point. -/
def isNumberStart (c : Char) : Bool := c.isDigit || c == Literal.point

/-- **The longest lexeme a text begins with.** -/
def read : List Char → Lexeme
  | [] => token .endOfInput []
  | c :: rest =>
    match Kind.ofChar? c with
    | some kind => token kind [c]
    | none =>
      if isNumberStart c then
        let literal := Literal.read (c :: rest)
        if literal.wellFormed then token .number literal.text else malformed literal.text
      else if isIdentifierStart c then
        token .identifier ((c :: rest).takeWhile isIdentifierPart)
      else unrecognized c

/-- **A token has text**, unless it is the end of the input. -/
theorem text_ne_nil_of_read {source text : List Char} {kind : Kind}
    (h : read source = token kind text) (hkind : kind ≠ .endOfInput) : text ≠ [] := by
  unfold read at h
  split at h
  · simp only [token.injEq] at h
    exact absurd h.1.symm hkind
  · rename_i c rest
    split at h
    · simp only [token.injEq] at h
      simp [← h.2]
    · split at h
      · dsimp only at h
        split at h
        · rename_i hwf
          simp only [token.injEq] at h
          exact h.2 ▸ Literal.text_ne_nil hwf
        · simp at h
      · split at h
        · rename_i hstart
          simp only [token.injEq] at h
          have hpart : isIdentifierPart c := by
            simp only [isIdentifierStart, isIdentifierPart, Char.isAlphanum,
              Bool.or_eq_true] at hstart ⊢
            exact hstart.imp Or.inl id
          simp [← h.2, hpart]
        · simp at h

/-- Where a token other than the end is read, something is ahead. -/
theorem ne_nil_of_read {source text : List Char} {kind : Kind}
    (h : read source = token kind text) (hkind : kind ≠ .endOfInput) : source ≠ [] := by
  rintro rfl
  simp only [read, token.injEq] at h
  exact hkind h.1.symm

end Lexeme

namespace Cursor

/-- Goes over the blanks ahead. -/
def skipBlanks (cursor : Cursor) : Cursor := (cursor.takeWhile Text.isBlank).2

/-- **The next token**, or what stands in its place, and the cursor after it. -/
def nextToken (cursor : Cursor) : Except (Located LexError) Token × Cursor :=
  let front := cursor.skipBlanks
  match Lexeme.read front.ahead with
  | .token kind text => (.ok ⟨kind, front.pos, .ofList text⟩, front.advance text.length)
  | .malformed text =>
    (.error ⟨.malformedNumber (.ofList text), front.pos, front.pos + text.length⟩,
      front.advance text.length)
  | .unrecognized c => (.error ⟨.unrecognized c, .single front.pos⟩, front)

/-- What `nextToken` would read. The cursor returns to where it stood, past
whatever stopped the reading. -/
def peekToken (cursor : Cursor) : Except (Located LexError) Token × Cursor :=
  let (outcome, after) := cursor.save.nextToken
  (outcome, after.restore)

/-- Skipping blanks leaves no more ahead than there was. -/
theorem length_ahead_skipBlanks_le (cursor : Cursor) :
    cursor.skipBlanks.ahead.length ≤ cursor.ahead.length := by
  simp [skipBlanks, takeWhile, advance, ahead]

/-- **A token other than the end leaves less ahead.** -/
theorem length_ahead_nextToken {cursor after : Cursor} {token : Token}
    (h : cursor.nextToken = (.ok token, after)) (hkind : token.kind ≠ .endOfInput) :
    after.ahead.length < cursor.ahead.length := by
  have hskip := cursor.length_ahead_skipBlanks_le
  unfold nextToken at h
  dsimp only at h
  split at h
  · rename_i kind text hread
    simp only [Prod.mk.injEq, Except.ok.injEq] at h
    obtain ⟨rfl, rfl⟩ := h
    have htext := List.length_pos_iff.2 (Lexeme.text_ne_nil_of_read hread hkind)
    have hahead := List.length_pos_iff.2 (Lexeme.ne_nil_of_read hread hkind)
    have : (cursor.skipBlanks.advance text.length).ahead.length =
        cursor.skipBlanks.ahead.length - text.length := by
      simp [advance, ahead]
    omega
  · simp at h
  · simp at h

end Cursor

end Calculator
