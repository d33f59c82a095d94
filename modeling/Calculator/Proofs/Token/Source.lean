import Calculator.Token.Source
import Calculator.Proofs.Grammar.Run
import Calculator.Proofs.Token.Munch
/-!
# Cursors and tapes as sources

A cursor is a source of tokens: a look ahead saves its place and returns to it,
past whatever was read in between (`Cursor.peekToken_eq`), and what is read as
a number is one (`Cursor.isNumber_of_nextToken`). So the tokens ahead of it can
be put on a tape (`Tape.ofCursor`).
-/

namespace Calculator

variable {cursor after : Cursor} {token : Token}

namespace Cursor

/-- A read is settled by the place alone. -/
theorem nextToken_save (cursor : Cursor) : cursor.save.nextToken.1 = cursor.nextToken.1 := by
  rw [nextToken_eq, nextToken_eq]
  rfl

/-- And it leaves alone what is saved. -/
theorem saved_nextToken (cursor : Cursor) : cursor.nextToken.2.saved = cursor.saved := by
  rw [nextToken_eq]
  rfl

/-- **A look at the next token leaves no trace**, whether there is one or not. -/
theorem peekToken_eq (cursor : Cursor) : cursor.peekToken = (cursor.nextToken.1, cursor) := by
  refine Prod.ext cursor.nextToken_save ?_
  show cursor.save.nextToken.2.restore = cursor
  rw [restore, saved_nextToken]
  rfl

/-- No read leaves more ahead. -/
theorem length_ahead_nextToken_le (cursor : Cursor) :
    cursor.nextToken.2.ahead.length ≤ cursor.ahead.length := by
  have hskip := cursor.length_ahead_skipBlanks_le
  rw [nextToken_eq]
  exact (List.drop_sublist _ _).length_le.trans hskip

/-- **What is read as a number is a number.** -/
theorem isNumber_of_nextToken (h : cursor.nextToken = (.ok token, after))
    (hkind : token.kind = .number) : Literal.isNumber token.text.toList := by
  rw [nextToken_eq] at h
  obtain ⟨hread, -⟩ := Lexeme.eq_token_of_reading (congrArg Prod.fst h)
  have hbegins := Lexeme.begins_read cursor.skipBlanks.ahead
  rw [hread, hkind] at hbegins
  generalize cursor.skipBlanks.ahead = source at hbegins
  generalize token.text.toList = word at hbegins
  cases hbegins with
  | symbol hsymbol => cases hsymbol
  | number _ hlongest _ => exact Literal.isNumber_of_mem hlongest.mem

/-- Tokens are read off a text as they are asked for. -/
instance : TokenSource Cursor where
  next := nextToken
  peek := peekToken
  left cursor := cursor.ahead.length
  peek_eq := peekToken_eq
  left_le {cursor after token} h := by
    have hle := cursor.length_ahead_nextToken_le
    rwa [h] at hle
  left_lt := length_ahead_nextToken
  isNumber := isNumber_of_nextToken

end Cursor

/-- The numbers of a stream are numbers. -/
theorem TokenStream.isNumber_ofCursor (cursor : Cursor) :
    ∀ token ∈ (ofCursor cursor).tokens, token.kind = .number →
      Literal.isNumber token.text.toList := by
  fun_induction ofCursor cursor with
  | case1 => exact List.forall_mem_nil _
  | case2 => exact List.forall_mem_nil _
  | case3 cursor token next h hkind hlt rest ih =>
    intro other hother hnumber
    rcases List.mem_cons.1 hother with rfl | hother
    · exact Cursor.isNumber_of_nextToken h hnumber
    · exact ih other hother hnumber

namespace Tape

/-- **The tokens ahead of a cursor, on a tape.** -/
def ofCursor (cursor : Cursor) : Tape where
  toTokenStream := .ofCursor cursor
  kind_ne := (TokenStream.kinds_ofCursor cursor).1
  kind_ending := (TokenStream.kinds_ofCursor cursor).2
  isNumber := TokenStream.isNumber_ofCursor cursor

/-- The tokens of a source, on a tape. -/
def ofString (source : String) : Tape := ofCursor (.ofString source)

end Tape

end Calculator
