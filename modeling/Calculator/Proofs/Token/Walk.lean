import Calculator.Proofs.Source.Steps
import Calculator.Proofs.Token.Source
/-!
# Reading character by character

A token can be read with no more than looks at the next character and moves over it
(`Cursor.walkToken`). A number is then left in the middle where its exponent has no
digits, and a character that begins no token is looked at and left. Wherever such a
walk ends, the places that were saved on its way have been returned to, and it gives
what one read gives (`Cursor.walkToken_eq`).
-/

namespace Calculator

variable {cursor : Cursor}

namespace Cursor

/-! ## The parts of a number -/

/-- Goes over the point of a number and the digits behind it. -/
def walkFraction (cursor : Cursor) : List Char × Cursor :=
  match cursor.stepIf (· == Literal.point) with
  | (none, cursor) => ([], cursor)
  | (some point, cursor) =>
    let (digits, cursor) := cursor.stepWhile Char.isDigit
    (point :: digits, cursor)

/-- Goes over the letter of an exponent, its sign and its digits, which may be missing. -/
def walkExponent (cursor : Cursor) : Option Exponent × Cursor :=
  match cursor.stepIf Exponent.isMark with
  | (none, cursor) => (none, cursor)
  | (some letter, cursor) =>
    let (sign, cursor) := cursor.stepIf Exponent.isSign
    let (digits, cursor) := cursor.stepWhile Char.isDigit
    (some ⟨letter, sign, digits⟩, cursor)

/-- **Goes over a number.** An exponent follows a digit only. One without digits of its
own ends the walk, and else the text is checked as a whole. -/
def walkNumber (cursor : Cursor) : Reading × Cursor :=
  let start := cursor.pos
  let (whole, cursor) := cursor.stepWhile Char.isDigit
  let (fraction, cursor) := cursor.walkFraction
  let mantissa := whole ++ fraction
  let (exponent, cursor) :=
    if mantissa.getLast?.any Char.isDigit then cursor.walkExponent else (none, cursor)
  let text := mantissa ++ (exponent.map Exponent.text).getD []
  let malformed := .error ⟨.malformedNumber (.ofList text), start, cursor.pos⟩
  if exponent.any (·.digits.isEmpty) then (malformed, cursor)
  else if Literal.isNumber text then (.ok ⟨.number, start, .ofList text⟩, cursor)
  else (malformed, cursor)

/-- **Reads a token by steps**: the first character behind the blanks says what to go
over. -/
def walkToken (cursor : Cursor) : Reading × Cursor :=
  let (_, cursor) := cursor.stepWhile Text.isBlank
  let start := cursor.pos
  match cursor.look with
  | (none, cursor) => (.ok ⟨.endOfInput, start, ""⟩, cursor)
  | (some c, cursor) =>
    match Kind.ofChar? c with
    | some kind => (.ok ⟨kind, start, .ofList [c]⟩, cursor.read.2)
    | none =>
      if Lexeme.isNumberStart c then cursor.walkNumber
      else if Lexeme.isIdentifierStart c then
        let (name, cursor) := cursor.stepWhile Lexeme.isIdentifierPart
        (.ok ⟨.identifier, start, .ofList name⟩, cursor)
      else (.error ⟨.unrecognized c, .single start⟩, cursor)

/-- Looks at a token by steps, and returns from wherever they led. -/
def lookToken (cursor : Cursor) : Reading × Cursor :=
  let (reading, after) := cursor.save.walkToken
  (reading, after.restore)

/-! ## What a walk goes over -/

/-- The point and its digits are the fraction that is read. -/
theorem walkFraction_eq {fraction : Option (List Char)}
    (h : Literal.readFraction? cursor.ahead = fraction) :
    cursor.walkFraction = ((fraction.map (Literal.point :: ·)).getD [],
      cursor.advance ((fraction.map (Literal.point :: ·)).getD []).length) := by
  subst h
  rw [walkFraction, stepIf_eq]
  obtain ⟨c, rest, hahead, htest, htake⟩ | ⟨hstop, htake⟩ :=
    cursor.takeIf_cases (· == Literal.point)
  · have hrest : (cursor.advance 1).ahead = rest := by simp [ahead_advance, hahead]
    obtain rfl : c = Literal.point := by simpa using htest
    rw [htake, hahead]
    simp [takeWhile, hrest, advance_advance, Literal.readFraction?, Nat.add_comm]
  · have hnone : Literal.readFraction? cursor.ahead = none := by
      cases hahead : cursor.ahead with
      | nil => rfl
      | cons c rest => simp [Literal.readFraction?, hstop c (by rw [hahead]; rfl)]
    rw [htake, hnone]
    simp [advance]

/-- The letter, the sign and the digits are the exponent that is read. -/
theorem walkExponent_eq {exponent : Option Exponent} (h : Exponent.read? cursor.ahead = exponent) :
    cursor.walkExponent =
      (exponent, cursor.advance ((exponent.map Exponent.text).getD []).length) := by
  subst h
  rw [walkExponent, stepIf_eq]
  obtain ⟨letter, rest, hahead, hletter, htake⟩ | ⟨hstop, htake⟩ :=
    cursor.takeIf_cases Exponent.isMark
  · have hrest : (cursor.advance 1).ahead = rest := by simp [ahead_advance, hahead]
    have hmark : (letter == 'e' || letter == 'E') = true := hletter
    rw [htake, hahead]
    obtain ⟨sign, digits, hahead', hsign, htake'⟩ | ⟨hstop, htake'⟩ :=
      (cursor.advance 1).takeIf_cases Exponent.isSign
    · obtain rfl : rest = sign :: digits := hrest.symm.trans hahead'
      have hdigits : (cursor.advance 2).ahead = digits := by simp [ahead_advance, hahead]
      simp [htake', takeWhile, advance_advance, hdigits, Exponent.read?, hmark, hsign,
        Exponent.text]
      congr 1
      omega
    · have hread : Exponent.read? (letter :: rest) =
          some ⟨letter, none, rest.takeWhile Char.isDigit⟩ := by
        cases rest with
        | nil => simp [Exponent.read?, hmark]
        | cons c rest => simp [Exponent.read?, hmark, hstop c (by rw [hrest]; rfl)]
      simp [htake', takeWhile, advance_advance, hrest, hread, Exponent.text, Nat.add_comm]
  · have hnone : Exponent.read? cursor.ahead = none := by
      cases hahead : cursor.ahead with
      | nil => rfl
      | cons c rest =>
        have hmark : (c == 'e' || c == 'E') = false := hstop c (by rw [hahead]; rfl)
        simp [Exponent.read?, hmark]
    rw [htake, hnone]
    simp [advance]

/-- **The whole walk goes over the literal that is read**, and the check of its text
decides what is made of it. -/
theorem walkNumber_eq (cursor : Cursor) :
    cursor.walkNumber =
      ((Lexeme.ofLiteral Literal.isNumber (Literal.read cursor.ahead)).reading cursor.pos,
        cursor.advance (Literal.read cursor.ahead).text.length) := by
  have hproper := Literal.proper_read cursor.ahead
  obtain ⟨rest, hahead, hexponent⟩ := Literal.exists_mantissa_append cursor.ahead
  have hstop : (cursor.advance (Literal.read cursor.ahead).text.length).pos =
      cursor.pos + (Literal.read cursor.ahead).text.length :=
    Place.pos_advance (Literal.text_read_begins cursor.ahead).length_le
  have hwhole : cursor.stepWhile Char.isDigit = ((Literal.read cursor.ahead).whole,
      cursor.advance (Literal.read cursor.ahead).whole.length) := cursor.stepWhile_eq Char.isDigit
  have hfraction : Literal.readFraction?
      (cursor.advance (Literal.read cursor.ahead).whole.length).ahead =
        (Literal.read cursor.ahead).fraction :=
    congrArg Literal.readFraction? (ahead_takeWhile cursor Char.isDigit)
  generalize Literal.read cursor.ahead = literal at *
  have hrest : (cursor.advance literal.mantissaText.length).ahead = rest := by
    rw [ahead_advance, hahead, List.drop_left]
  have hwalk : (if literal.mantissaText.getLast?.any Char.isDigit then
      (cursor.advance literal.mantissaText.length).walkExponent
      else (none, cursor.advance literal.mantissaText.length)) =
      (literal.exponent, cursor.advance literal.text.length) := by
    have hdigit : literal.mantissaText.getLast?.any Char.isDigit =
        Literal.endsInDigit literal.whole literal.fraction := by
      rw [Bool.eq_iff_iff, hproper.endsInDigit_iff, Option.any_eq_true]
      rfl
    rw [hdigit]
    cases hends : Literal.endsInDigit literal.whole literal.fraction with
    | true =>
      rw [hends, if_pos rfl, ← hrest] at hexponent
      rw [if_pos rfl, walkExponent_eq hexponent.symm, advance_advance, Literal.text,
        List.length_append]
    | false =>
      rw [hends, if_neg Bool.false_ne_true] at hexponent
      rw [if_neg Bool.false_ne_true, Literal.text, hexponent]
      simp
  have hmantissa : (cursor.advance literal.whole.length).advance
      ((literal.fraction.map (Literal.point :: ·)).getD []).length =
        cursor.advance literal.mantissaText.length := by
    rw [advance_advance, Literal.mantissaText, List.length_append]
  rw [walkNumber, hwhole]
  dsimp only
  rw [walkFraction_eq hfraction, hmantissa, ← Literal.mantissaText]
  dsimp only
  rw [hwalk, ← Literal.text]
  dsimp only
  rw [hstop, Lexeme.ofLiteral]
  split_ifs <;> rfl

/-- **A token that is read by steps is the next token**, and the cursor stands where
it does after one read. -/
theorem walkToken_eq (cursor : Cursor) : cursor.walkToken = cursor.nextToken := by
  have hblanks : cursor.stepWhile Text.isBlank =
      ((cursor.takeWhile Text.isBlank).1, cursor.skipBlanks) := cursor.stepWhile_eq Text.isBlank
  rw [walkToken, hblanks, nextToken_eq]
  generalize cursor.skipBlanks = front
  dsimp only
  rw [look_eq, peek]
  cases hahead : front.ahead with
  | nil => simp [Lexeme.read, Lexeme.reading, Lexeme.width, advance]
  | cons c rest =>
    dsimp only [List.head?_cons]
    cases hkind : Kind.ofChar? c with
    | some kind => simp [Lexeme.read, hkind, Lexeme.reading, Lexeme.width, Cursor.read]
    | none =>
      dsimp only
      by_cases hnumber : Lexeme.isNumberStart c
      · have hwidth : (Lexeme.read (c :: rest)).width = (Literal.read (c :: rest)).text.length := by
          simp only [Lexeme.read, hkind, hnumber, if_true]
          split <;> rfl
        rw [if_pos hnumber, walkNumber_eq, hahead, hwidth,
          Lexeme.ofLiteral_read (fun _ => Literal.isNumber_of_mem) (by decide) hnumber]
      · by_cases hidentifier : Lexeme.isIdentifierStart c
        · simp [Lexeme.read, hkind, hnumber, hidentifier, Lexeme.reading, Lexeme.width,
            takeWhile, hahead]
        · simp [Lexeme.read, hkind, hnumber, hidentifier, Lexeme.reading, Lexeme.width, advance]

/-! ## What a look leaves -/

/-- **So a look by steps is a look**, wherever the steps led. -/
theorem lookToken_eq (cursor : Cursor) : cursor.lookToken = cursor.peekToken := by
  rw [lookToken, walkToken_eq]
  rfl

/-- It shows what would be read, and the cursor stands as it stood. -/
theorem lookToken_eq_walkToken (cursor : Cursor) :
    cursor.lookToken = (cursor.walkToken.1, cursor) := by
  rw [lookToken_eq, walkToken_eq, peekToken_eq]

/-- What is asked of a cursor. -/
inductive Request where
  | read
  | look
deriving DecidableEq, Repr

/-- What one request is answered, and the cursor behind it. -/
def answer (cursor : Cursor) : Request → Reading × Cursor
  | .read => cursor.walkToken
  | .look => cursor.lookToken

/-- **What requests are answered in turn**, whether or not one of them meets an error. -/
def answerAll (cursor : Cursor) : List Request → List Reading × Cursor
  | [] => ([], cursor)
  | request :: rest =>
    let (reading, after) := cursor.answer request
    let (readings, last) := after.answerAll rest
    (reading :: readings, last)

/-- The answers to the reads among the requests. -/
def readAnswers (requests : List Request) (answers : List Reading) : List Reading :=
  ((requests.zip answers).filter (·.1 = .read)).map Prod.snd

variable (cursor) (before later requests : List Request)

theorem answerAll_cons (request : Request) : cursor.answerAll (request :: requests) =
    ((cursor.answer request).1 :: ((cursor.answer request).2.answerAll requests).1,
      ((cursor.answer request).2.answerAll requests).2) := rfl

/-- Requests are answered from where those before them leave the cursor. -/
theorem answerAll_append : cursor.answerAll (before ++ later) =
    ((cursor.answerAll before).1 ++ ((cursor.answerAll before).2.answerAll later).1,
      ((cursor.answerAll before).2.answerAll later).2) := by
  induction before generalizing cursor with
  | nil => rfl
  | cons request before ih => simp only [List.cons_append, answerAll_cons, ih]

theorem length_answerAll : (cursor.answerAll requests).1.length = requests.length := by
  induction requests generalizing cursor with
  | nil => rfl
  | cons request requests ih => simp only [answerAll_cons, List.length_cons, ih]

/-- **A look makes no difference to what comes after it.** -/
theorem answerAll_look : cursor.answerAll (.look :: requests) =
    (cursor.walkToken.1 :: (cursor.answerAll requests).1, (cursor.answerAll requests).2) := by
  rw [answerAll_cons, answer, lookToken_eq_walkToken]

/-- So all looks can be left out. -/
theorem answerAll_reads : cursor.answerAll (requests.filter (· = .read)) =
    (readAnswers requests (cursor.answerAll requests).1, (cursor.answerAll requests).2) := by
  induction requests generalizing cursor with
  | nil => rfl
  | cons request requests ih =>
    cases request with
    | read =>
      rw [List.filter_cons_of_pos (by decide), answerAll_cons, answerAll_cons, ih]
      rfl
    | look =>
      rw [List.filter_cons_of_neg (by decide), answerAll_look, ih]
      rfl

/-- What was saved before the requests is what is saved behind them. -/
theorem saved_answerAll : (cursor.answerAll requests).2.saved = cursor.saved := by
  induction requests generalizing cursor with
  | nil => rfl
  | cons request requests ih =>
    cases request with
    | read =>
      rw [answerAll_cons, answer, walkToken_eq]
      exact (ih _).trans cursor.saved_nextToken
    | look =>
      rw [answerAll_look]
      exact ih cursor

end Cursor

/-- **Looks leave no trace.** Wherever a cursor stands and whatever it has saved, reading
and looking by steps give what its reads and looks give. Among any requests, each look is
answered by the token or the error that a read would be answered by there, and leaves
the place and all that is saved as they were. Without the looks, the reads are answered
as they are with them, and the cursor comes to the same end. -/
theorem looks_leave_no_trace (cursor : Cursor) :
    (cursor.walkToken = cursor.nextToken ∧ cursor.lookToken = cursor.peekToken) ∧
    (∀ before later : List Cursor.Request, let now := (cursor.answerAll before).2
      (cursor.answerAll (before ++ .look :: later)).1[before.length]? = some now.walkToken.1 ∧
        now.lookToken.2.pos = now.pos ∧ now.lookToken.2.saved = now.saved ∧
        now.lookToken.2 = now ∧ now.saved = cursor.saved) ∧
    ∀ requests : List Cursor.Request,
      cursor.answerAll (requests.filter (· = .read)) =
        (Cursor.readAnswers requests (cursor.answerAll requests).1,
          (cursor.answerAll requests).2) := by
  refine ⟨⟨cursor.walkToken_eq, cursor.lookToken_eq⟩, fun before later => ?_,
    cursor.answerAll_reads⟩
  have hlook := Cursor.lookToken_eq_walkToken (cursor.answerAll before).2
  dsimp only
  rw [hlook]
  refine ⟨?_, rfl, rfl, rfl, cursor.saved_answerAll before⟩
  rw [Cursor.answerAll_append, Cursor.answerAll_look, ← cursor.length_answerAll before,
    List.getElem?_append_right le_rfl, Nat.sub_self]
  rfl

end Calculator
