import Calculator.Proofs.Grammar.Names
import Calculator.Proofs.Grammar.Run
import Calculator.Proofs.Text.LetterCase
import Calculator.Proofs.Token.Reading
/-!
# Tokens of a text in small letters

Reading asks of a character only what is the same for a capital and its small
letter, so making a text small first gives the same lexemes in small letters
(`Lexeme.read_map_toLower`), one read after the other
(`TokenStream.ofCursor_toLower`). The letter that opens an exponent is the one part
of a number that has case, and the value does not depend on it
(`Literal.valueOf_toLower`).
-/

namespace Calculator

variable (source : List Char)

/-- A run of characters is the same run in small letters. -/
theorem Text.takeWhile_map_toLower {p : Char → Bool} (h : ∀ c : Char, p c.toLower = p c) :
    (source.map Char.toLower).takeWhile p = (source.takeWhile p).map Char.toLower := by
  rw [List.takeWhile_map]
  congr 2
  exact funext h

/-- And so is what follows it. -/
theorem Text.dropWhile_map_toLower {p : Char → Bool} (h : ∀ c : Char, p c.toLower = p c) :
    (source.map Char.toLower).dropWhile p = (source.dropWhile p).map Char.toLower := by
  rw [List.dropWhile_map]
  congr 2
  exact funext h

/-! ## Numbers -/

theorem isDigit_toLower (c : Char) : c.toLower.isDigit = c.isDigit :=
  Text.apply_toLower Char.isDigit (by decide) c

/-- The exponent in small letters. -/
def Exponent.toLower (exponent : Exponent) : Exponent where
  letter := exponent.letter.toLower
  sign := exponent.sign.map Char.toLower
  digits := exponent.digits.map Char.toLower

/-- The literal in small letters. -/
def Literal.toLower (literal : Literal) : Literal where
  whole := literal.whole.map Char.toLower
  fraction := literal.fraction.map (List.map Char.toLower)
  exponent := literal.exponent.map Exponent.toLower

/-- An exponent is opened by either letter. -/
theorem Exponent.read?_map_toLower :
    read? (source.map Char.toLower) = (read? source).map toLower := by
  have hmark (c : Char) : (c.toLower == 'e' || c.toLower == 'E') = (c == 'e' || c == 'E') :=
    Text.apply_toLower (fun c => c == 'e' || c == 'E') (by decide) c
  have hsign (c : Char) : isSign c.toLower = isSign c := Text.apply_toLower isSign (by decide) c
  have hdigits (rest : List Char) : (rest.map Char.toLower).takeWhile Char.isDigit =
      (rest.takeWhile Char.isDigit).map Char.toLower :=
    Text.takeWhile_map_toLower rest isDigit_toLower
  rcases source with _ | ⟨letter, _ | ⟨sign, rest⟩⟩
  · rfl
  · simp only [List.map_cons, List.map_nil, read?, hmark]
    split <;> rfl
  · have hall := hdigits (sign :: rest)
    rw [List.map_cons] at hall
    simp only [List.map_cons, read?, hmark, hsign, hall, hdigits]
    split
    · split <;> rfl
    · rfl

namespace Literal

/-- A fraction is opened by the point. -/
theorem readFraction?_map_toLower :
    readFraction? (source.map Char.toLower) =
      (readFraction? source).map (List.map Char.toLower) := by
  have hpoint (c : Char) : (c.toLower == point) = (c == point) :=
    Text.apply_toLower (· == point) (by decide) c
  cases source with
  | nil => rfl
  | cons c rest =>
    simp only [List.map_cons, readFraction?, hpoint,
      Text.takeWhile_map_toLower rest isDigit_toLower]
    split <;> rfl

/-- A digit comes last in either case. -/
theorem endsInDigit_map_toLower (whole : List Char) (fraction : Option (List Char)) :
    endsInDigit (whole.map Char.toLower) (fraction.map (List.map Char.toLower)) =
      endsInDigit whole fraction := by
  cases fraction <;> simp [endsInDigit]

/-- **A literal is read part by part**, in either case. -/
theorem read_map_toLower : read (source.map Char.toLower) = (read source).toLower := by
  have hwhole := Text.takeWhile_map_toLower source isDigit_toLower
  have hafter := Text.dropWhile_map_toLower source isDigit_toLower
  have hfraction := readFraction?_map_toLower (source.dropWhile Char.isDigit)
  have hlength (fraction : Option (List Char)) :
      ((fraction.map (List.map Char.toLower)).map (·.length + 1)).getD 0 =
        (fraction.map (·.length + 1)).getD 0 := by
    cases fraction <;> simp
  unfold read toLower
  dsimp only
  rw [hwhole, hafter, hfraction, hlength, endsInDigit_map_toLower, ← List.map_drop,
    Exponent.read?_map_toLower]
  split <;> rfl

variable (literal : Literal)

/-- The parts of a literal are there in either case. -/
theorem wellFormed_toLower : literal.toLower.wellFormed = literal.wellFormed := by
  obtain ⟨whole, _ | fraction, _ | exponent⟩ := literal <;>
    simp [wellFormed, toLower, Exponent.toLower]

/-- A literal is written in small letters where its text is. -/
theorem text_toLower : literal.toLower.text = literal.text.map Char.toLower := by
  have hpoint : point.toLower = point := by decide
  obtain ⟨whole, _ | fraction, _ | ⟨letter, _ | sign, digits⟩⟩ := literal <;>
    simp [text, mantissaText, toLower, Exponent.toLower, Exponent.text, hpoint]

/-- Digits have no case. -/
theorem map_toLower_digits {digits : List Char} (h : digits ∈ digitWords) :
    digits.map Char.toLower = digits := by
  refine (List.map_congr_left fun c hc => ?_).trans digits.map_id
  have hdigit : c.isDigit := h c hc
  refine Char.toLower_eq_of_not_isUpper fun hupper => ?_
  simp [Char.isDigit, Char.isUpper, UInt32.le_iff_toNat_le] at hdigit hupper
  omega

variable {literal}

/-- Only the letter of an exponent has. -/
theorem Proper.exponent_toLower (h : literal.Proper) {exponent : Exponent}
    (hexponent : exponent ∈ literal.exponent) :
    exponent.toLower = { exponent with letter := exponent.letter.toLower } := by
  obtain ⟨-, -, hsign, hdigits⟩ := h.exponent exponent hexponent
  obtain ⟨letter, sign, digits⟩ := exponent
  have hsign' : sign.map Char.toLower = sign := by
    cases sign with
    | none => rfl
    | some c =>
      rcases (by simpa [Exponent.isSign] using hsign c rfl : c = '+' ∨ c = '-') with rfl | rfl <;>
        rfl
  rw [Exponent.toLower, hsign', map_toLower_digits hdigits]

/-- So the number a literal denotes is the same. -/
theorem Proper.value_toLower (h : literal.Proper) : literal.toLower.value = literal.value := by
  have hwhole := map_toLower_digits h.whole
  have hfraction : literal.fraction.map (List.map Char.toLower) = literal.fraction := by
    cases hfraction : literal.fraction with
    | none => rfl
    | some digits => exact congrArg some (map_toLower_digits (h.fraction digits hfraction))
  have hpower : literal.toLower.power = literal.power := by
    cases hexponent : literal.exponent with
    | none => simp [power, toLower, hexponent]
    | some exponent => simp [power, toLower, hexponent, h.exponent_toLower hexponent]
  unfold value
  rw [hpower]
  simp only [toLower, hwhole, hfraction]

/-- **The value of a number does not depend on the case of its letter.** -/
theorem valueOf_toLower (source : String) : valueOf source.toLower = valueOf source := by
  rw [valueOf, Text.toList_toLower, read_map_toLower, (proper_read _).value_toLower, ← valueOf]

end Literal

/-! ## Lexemes -/

/-- The lexeme in small letters. A character that begins none is kept. -/
def Lexeme.toLower : Lexeme → Lexeme
  | .token kind text => .token kind (text.map Char.toLower)
  | .malformed text => .malformed (text.map Char.toLower)
  | .unrecognized c => .unrecognized c

/-- **What a text begins with, it begins with in small letters.** -/
theorem Lexeme.read_map_toLower : read (source.map Char.toLower) = (read source).toLower := by
  have hnumber (c : Char) : isNumberStart c.toLower = isNumberStart c :=
    Text.apply_toLower isNumberStart (by decide) c
  have hstart (c : Char) : isIdentifierStart c.toLower = isIdentifierStart c :=
    Text.apply_toLower isIdentifierStart (by decide) c
  have hpart (c : Char) : isIdentifierPart c.toLower = isIdentifierPart c :=
    Text.apply_toLower isIdentifierPart (by decide) c
  cases source with
  | nil => rfl
  | cons c rest =>
    have hsymbol : Kind.ofChar? c.toLower = Kind.ofChar? c :=
      Text.apply_toLower Kind.ofChar? (by decide) c
    have hliteral := Literal.read_map_toLower (c :: rest)
    have hname := Text.takeWhile_map_toLower (c :: rest) hpart
    rw [List.map_cons] at hliteral hname ⊢
    rw [read, read, hsymbol, hnumber, hstart, hliteral, hname]
    dsimp only
    rw [Literal.wellFormed_toLower, Literal.text_toLower]
    split
    · rfl
    · split
      · split <;> rfl
      · split
        · rfl
        · rename_i hidentifier
          have hupper : ¬ c.isUpper := fun hupper =>
            hidentifier (by simp [isIdentifierStart, Char.isAlpha, hupper])
          rw [Char.toLower_eq_of_not_isUpper hupper]
          rfl

/-! ## Streams -/

variable (f : String → String)

/-- The token with its text changed. -/
def Token.mapText (token : Token) : Token := { token with text := f token.text }

/-- What a read gives, with its text changed. -/
def Reading.mapText (reading : Reading) : Reading :=
  (reading.map (Token.mapText f)).mapError (Located.map (LexError.mapText f))

/-- The stream with the texts of its tokens changed. -/
def TokenStream.mapText (stream : TokenStream) : TokenStream where
  tokens := stream.tokens.map (Token.mapText f)
  ending := Reading.mapText f stream.ending

/-- A lexeme in small letters is read as such, in its place. -/
theorem Lexeme.reading_toLower (lexeme : Lexeme) (pos : Nat) :
    lexeme.toLower.reading pos = (lexeme.reading pos).mapText String.toLower := by
  have htext (text : List Char) :
      String.ofList (text.map Char.toLower) = (String.ofList text).toLower := by
    rw [← String.toList_inj, String.toList_ofList, Text.toList_toLower, String.toList_ofList]
  cases lexeme with
  | token kind text => simp only [toLower, reading, htext]; rfl
  | malformed text => simp only [toLower, reading, htext, List.length_map]; rfl
  | unrecognized c => rfl

/-- And it is as wide. -/
theorem Lexeme.width_toLower (lexeme : Lexeme) : lexeme.toLower.width = lexeme.width := by
  cases lexeme <;> simp [toLower, width]

namespace Cursor

/-- The cursor before the same text in small letters. -/
def toLower (cursor : Cursor) : Cursor :=
  { cursor with place := { cursor.place with ahead := cursor.ahead.map Char.toLower } }

variable (cursor : Cursor)

/-- It goes over as much. -/
theorem toLower_advance (n : Nat) : cursor.toLower.advance n = (cursor.advance n).toLower := by
  simp [toLower, advance, Place.advance, ahead, List.map_drop]

/-- It skips the same blanks. -/
theorem toLower_skipBlanks : cursor.toLower.skipBlanks = cursor.skipBlanks.toLower := by
  have hblank (c : Char) : Text.isBlank c.toLower = Text.isBlank c :=
    Text.apply_toLower Text.isBlank (by decide) c
  have htake := Text.takeWhile_map_toLower cursor.ahead hblank
  rw [skipBlanks, skipBlanks, takeWhile, takeWhile, ← toLower_advance]
  show cursor.toLower.advance ((cursor.ahead.map Char.toLower).takeWhile Text.isBlank).length = _
  rw [htake, List.length_map]

/-- **It reads the same token** in small letters, and stands behind it. -/
theorem toLower_nextToken : cursor.toLower.nextToken =
    (Reading.mapText String.toLower cursor.nextToken.1, cursor.nextToken.2.toLower) := by
  have hahead : cursor.toLower.skipBlanks.ahead = cursor.skipBlanks.ahead.map Char.toLower := by
    rw [toLower_skipBlanks]
    rfl
  have hpos : cursor.toLower.skipBlanks.pos = cursor.skipBlanks.pos := by
    rw [toLower_skipBlanks]
    rfl
  rw [nextToken_eq, nextToken_eq, hahead, hpos, Lexeme.read_map_toLower, Lexeme.reading_toLower,
    Lexeme.width_toLower, toLower_skipBlanks, toLower_advance]

end Cursor

/-- **The stream of a text in small letters** is the stream of the text, in small letters. -/
theorem TokenStream.ofCursor_toLower (cursor : Cursor) :
    ofCursor cursor.toLower = (ofCursor cursor).mapText String.toLower := by
  fun_induction ofCursor cursor with
  | case1 cursor error next h =>
    have hnext : cursor.toLower.nextToken =
        (.error (error.map (LexError.mapText String.toLower)), next.toLower) := by
      rw [Cursor.toLower_nextToken, h]
      rfl
    exact ofCursor_of_error hnext
  | case2 cursor token next h hkind =>
    have hnext : cursor.toLower.nextToken = (.ok (token.mapText String.toLower), next.toLower) := by
      rw [Cursor.toLower_nextToken, h]
      rfl
    exact ofCursor_of_end hnext hkind
  | case3 cursor token next h hkind hlt rest ih =>
    have hnext : cursor.toLower.nextToken = (.ok (token.mapText String.toLower), next.toLower) := by
      rw [Cursor.toLower_nextToken, h]
      rfl
    rw [ofCursor_of_token hnext hkind, ih]
    rfl

/-- The same of a source. -/
theorem TokenStream.ofString_toLower (source : String) :
    ofString source.toLower = (ofString source).mapText String.toLower := by
  have hcursor : Cursor.ofString source.toLower = (Cursor.ofString source).toLower := by
    rw [Cursor.ofString, Text.toList_toLower]
    rfl
  rw [ofString, hcursor, ofCursor_toLower, ← ofString]

end Calculator
