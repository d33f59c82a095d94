import Calculator.Proofs.Token.Reading
/-!
# The longest lexeme

What a text begins with, said by languages and their longest words rather
than by reading (`Lexeme.Begins`): a symbol, the longest identifier, the
longest number literal, or what is wrong with one. Reading gives what a text
begins with (`Lexeme.begins_read`) and nothing else does (`Lexeme.Begins.eq_read`).
-/

namespace Calculator

namespace Lexeme

/-- **Identifiers**: a letter or an underscore, and letters, digits and underscores after it. -/
def identifiers : Language Char :=
  {word | ∃ c rest, word = c :: rest ∧ isIdentifierStart c ∧ ∀ d ∈ rest, isIdentifierPart d}

/-- **What a text begins with.** The first character says which kind of lexeme
it is, and the longest word of its language is the lexeme. A number is
malformed where no literal is, and where an exponent without digits goes on
after the longest. -/
inductive Begins : List Char → Lexeme → Prop
  | endOfInput : Begins [] (token .endOfInput [])
  | symbol {c : Char} {rest : List Char} {kind : Kind} : kind.symbol? = some c →
      Begins (c :: rest) (token kind [c])
  | identifier {c : Char} {rest name : List Char} : isIdentifierStart c →
      IsLongest identifiers (c :: rest) name → Begins (c :: rest) (token .identifier name)
  | number {c : Char} {rest word : List Char} : isNumberStart c →
      IsLongest Literal.language (c :: rest) word →
      (¬ ∃ letter after, Literal.Dangles (c :: rest) word letter after) →
      Begins (c :: rest) (token .number word)
  | noNumber {c : Char} {rest : List Char} : isNumberStart c →
      (∀ word ∈ Literal.language, ¬ word <+: c :: rest) →
      Begins (c :: rest) (malformed [Literal.point])
  | dangling {c : Char} {rest word : List Char} {letter : Char} {after : List Char} :
      isNumberStart c → IsLongest Literal.language (c :: rest) word →
      Literal.Dangles (c :: rest) word letter after →
      Begins (c :: rest)
        (malformed (word ++ letter :: (after.head?.filter Exponent.isSign).toList))
  | unrecognized {c : Char} {rest : List Char} : (∀ kind : Kind, kind.symbol? ≠ some c) →
      ¬ isNumberStart c → ¬ isIdentifierStart c → Begins (c :: rest) (unrecognized c)

variable {c : Char} {source rest word : List Char}

/-! ## The kinds of first characters -/

/-- A symbol begins nothing else. -/
theorem not_start_of_symbol {kind : Kind} (h : kind.symbol? = some c) :
    isNumberStart c = false ∧ isIdentifierStart c = false := by
  cases kind <;> cases h <;> decide

/-- A number does not begin as an identifier does. -/
theorem not_isNumberStart (h : isIdentifierStart c) : isNumberStart c = false := by
  simp only [isIdentifierStart, Char.isAlpha, Char.isUpper, Char.isLower, ge_iff_le,
    Bool.or_eq_true, Bool.and_eq_true, decide_eq_true_eq, beq_iff_eq,
    UInt32.le_iff_toNat_le] at h
  change ((65 ≤ c.toNat ∧ c.toNat ≤ 90) ∨ (97 ≤ c.toNat ∧ c.toNat ≤ 122)) ∨ c = '_' at h
  have hdigit : c.isDigit = false := by
    rw [← Bool.not_eq_true, Char.isDigit]
    simp only [ge_iff_le, Bool.and_eq_true, decide_eq_true_eq, UInt32.le_iff_toNat_le]
    change ¬ (48 ≤ c.toNat ∧ c.toNat ≤ 57)
    rcases h with h | rfl
    · omega
    · decide
  have hpoint : c ≠ Literal.point := by
    rintro rfl
    revert h
    decide
  simp [isNumberStart, hdigit, hpoint]

/-- A character that begins a number or an identifier is no symbol. -/
theorem ofChar?_eq_none (h : isNumberStart c ∨ isIdentifierStart c) : Kind.ofChar? c = none := by
  cases hkind : Kind.ofChar? c with
  | none => rfl
  | some kind =>
    obtain ⟨hnumber, hidentifier⟩ := not_start_of_symbol (Kind.ofChar?_eq_some.1 hkind)
    simp [hnumber, hidentifier] at h

/-- What begins an identifier may also go on with it. -/
theorem isIdentifierPart_of_start (h : isIdentifierStart c) : isIdentifierPart c := by
  simp only [isIdentifierStart, isIdentifierPart, Char.isAlphanum, Bool.or_eq_true] at h ⊢
  exact h.imp_left .inl

/-! ## Longest identifiers -/

/-- **The run of characters that an identifier may hold is the longest one.** -/
theorem isLongest_identifier (h : isIdentifierStart c) :
    IsLongest identifiers (c :: rest) ((c :: rest).takeWhile isIdentifierPart) where
  mem := ⟨c, rest.takeWhile isIdentifierPart, by simp [isIdentifierPart_of_start h], h,
    List.all_eq_true.1 List.all_takeWhile⟩
  begins := List.takeWhile_prefix _
  longest := by
    rintro _ ⟨d, ds, rfl, hd, hds⟩ ⟨more, hsource⟩
    have hall : ∀ c ∈ d :: ds, isIdentifierPart c :=
      List.forall_mem_cons.2 ⟨isIdentifierPart_of_start hd, hds⟩
    rw [← hsource, List.takeWhile_append_of_pos hall, List.length_append]
    exact Nat.le_add_right _ _

/-! ## Numbers -/

/-- **A read that begins as a number** is the longest literal, unless none is
there or an exponent without digits goes on after it. -/
theorem begins_number (h : isNumberStart c) :
    Begins (c :: rest)
      (if (Literal.read (c :: rest)).wellFormed then token .number (Literal.read (c :: rest)).text
        else malformed (Literal.read (c :: rest)).text) := by
  by_cases hwf : (Literal.read (c :: rest)).wellFormed
  · rw [if_pos hwf]
    exact .number h (Literal.isLongest_read hwf) (Literal.not_dangles_text _)
  · rw [if_neg hwf]
    by_cases hdigit : (Literal.read (c :: rest)).mantissa.wellFormed
    · obtain ⟨letter, after, hdangles, htext⟩ := Literal.dangles_of_not_wellFormed hdigit hwf
      rw [htext]
      exact .dangling h (Literal.isLongest_mantissa hdigit hwf) hdangles
    · rw [Literal.text_read_of_no_digit (by simpa [isNumberStart] using h) hdigit]
      exact .noNumber h (Literal.not_begins_of_no_digit hdigit)

/-- **What is read is what the text begins with.** -/
theorem begins_read (source : List Char) : Begins source (read source) := by
  unfold read
  split
  · exact .endOfInput
  · rename_i c rest
    split
    · rename_i kind hkind
      exact .symbol (Kind.ofChar?_eq_some.1 hkind)
    · rename_i hkind
      split
      · rename_i hstart
        exact begins_number hstart
      · rename_i hnumber
        split
        · rename_i hstart
          exact .identifier hstart (isLongest_identifier hstart)
        · rename_i hidentifier
          refine .unrecognized (fun kind h => ?_) hnumber hidentifier
          rw [Kind.ofChar?_eq_some.2 h] at hkind
          cases hkind

/-- **The longest literal is what is read**, or what precedes an exponent
without digits that is read with it. -/
theorem eq_read_of_isLongest (h : IsLongest Literal.language source word) :
    (Literal.read source).wellFormed ∧ word = (Literal.read source).text ∨
      ¬ (Literal.read source).wellFormed ∧ ∃ letter after,
        Literal.Dangles source word letter after ∧ (Literal.read source).text =
          word ++ letter :: (after.head?.filter Exponent.isSign).toList := by
  by_cases hwf : (Literal.read source).wellFormed
  · exact .inl ⟨hwf, h.unique (Literal.isLongest_read hwf)⟩
  · by_cases hdigit : (Literal.read source).mantissa.wellFormed
    · rw [h.unique (Literal.isLongest_mantissa hdigit hwf)]
      exact .inr ⟨hwf, Literal.dangles_of_not_wellFormed hdigit hwf⟩
    · exact absurd h.begins (Literal.not_begins_of_no_digit hdigit word h.mem)

/-- **A text begins with one thing only.** -/
theorem Begins.eq_read {lexeme : Lexeme} (h : Begins source lexeme) : lexeme = read source := by
  cases h with
  | endOfInput => rfl
  | symbol hkind => simp [read, Kind.ofChar?_eq_some.2 hkind]
  | identifier hstart hname =>
    rw [hname.unique (isLongest_identifier hstart)]
    simp [read, ofChar?_eq_none (.inr hstart), not_isNumberStart hstart, hstart]
  | @number c rest word hstart hword hnot =>
    rcases eq_read_of_isLongest hword with ⟨hwf, rfl⟩ | ⟨-, letter, after, hdangles, -⟩
    · simp [read, ofChar?_eq_none (.inl hstart), hstart, hwf]
    · exact absurd ⟨letter, after, hdangles⟩ hnot
  | @noNumber c rest hstart hnone =>
    have hdigit : ¬ (Literal.read (c :: rest)).mantissa.wellFormed := by
      intro hdigit
      have hmem := (Literal.proper_read (c :: rest)).mantissa.text_mem hdigit
      rw [Literal.text_mantissa] at hmem
      exact hnone _ hmem ((Literal.mantissaText_begins _).trans (Literal.text_read_begins _))
    have hwf : ¬ (Literal.read (c :: rest)).wellFormed := fun hwf =>
      hnone _ ((Literal.proper_read _).text_mem hwf) (Literal.text_read_begins _)
    have htext := Literal.text_read_of_no_digit (by simpa [isNumberStart] using hstart) hdigit
    simp [read, ofChar?_eq_none (.inl hstart), hstart, hwf, htext]
  | @dangling c rest word letter after hstart hword hdangles =>
    rcases eq_read_of_isLongest hword with ⟨-, rfl⟩ | ⟨hwf, letter', after', hdangles', htext⟩
    · exact absurd ⟨letter, after, hdangles⟩ (Literal.not_dangles_text _)
    · have hsame := List.append_cancel_left (hdangles.split.symm.trans hdangles'.split)
      obtain ⟨rfl, rfl⟩ := List.cons.inj hsame
      simp [read, ofChar?_eq_none (.inl hstart), hstart, hwf, htext]
  | @unrecognized c rest hsymbol hnumber hidentifier =>
    have hnone : Kind.ofChar? c = none := by
      cases hkind : Kind.ofChar? c with
      | none => rfl
      | some kind => exact absurd (Kind.ofChar?_eq_some.1 hkind) (hsymbol kind)
    simp [read, hnone, hnumber, hidentifier]

/-! ## Checking a literal -/

/-- **What is made of a literal** whose text a check has to accept as a number.
An exponent without digits is ruled out by sight. -/
def ofLiteral (accepts : List Char → Bool) (literal : Literal) : Lexeme :=
  if literal.exponent.any (·.digits.isEmpty) then malformed literal.text
  else if accepts literal.text then token .number literal.text
  else malformed literal.text

variable {accepts : List Char → Bool}

/-- A literal is well formed if it is so without its exponent, and that has digits. -/
theorem wellFormed_eq (literal : Literal) : literal.wellFormed =
    (literal.mantissa.wellFormed && !literal.exponent.any (·.digits.isEmpty)) := by
  obtain ⟨whole, fraction, _ | exponent⟩ := literal <;> simp [Literal.wellFormed, Literal.mantissa]

/-- **The check rejects a point and nothing else** where it is asked. -/
theorem accepts_eq_false_iff (haccepts : ∀ word ∈ Literal.language, accepts word)
    (hpoint : accepts [Literal.point] = false) (hstart : isNumberStart c)
    (hdigits : ¬ (Literal.read (c :: rest)).exponent.any (·.digits.isEmpty)) :
    accepts (Literal.read (c :: rest)).text = false ↔
      (Literal.read (c :: rest)).text = [Literal.point] := by
  constructor
  · intro hrejects
    refine Literal.text_read_of_no_digit (by simpa [isNumberStart] using hstart) fun hdigit => ?_
    have hwf : (Literal.read (c :: rest)).wellFormed := by
      rw [wellFormed_eq, hdigit]
      simpa using hdigits
    have hmem := (Literal.proper_read (c :: rest)).text_mem hwf
    rw [haccepts _ hmem] at hrejects
    cases hrejects
  · intro htext
    rw [htext, hpoint]

/-- **So it changes nothing**: what it leaves of a literal is what is read. -/
theorem ofLiteral_read (haccepts : ∀ word ∈ Literal.language, accepts word)
    (hpoint : accepts [Literal.point] = false) (hstart : isNumberStart c) :
    ofLiteral accepts (Literal.read (c :: rest)) = read (c :: rest) := by
  have hread : read (c :: rest) =
      if (Literal.read (c :: rest)).wellFormed then token .number (Literal.read (c :: rest)).text
      else malformed (Literal.read (c :: rest)).text := by
    simp [read, ofChar?_eq_none (.inl hstart), hstart]
  rw [hread, ofLiteral]
  by_cases hdigits : (Literal.read (c :: rest)).exponent.any (·.digits.isEmpty)
  · rw [if_pos hdigits, if_neg (by rw [wellFormed_eq, hdigits]; simp)]
  · rw [if_neg hdigits]
    by_cases hwf : (Literal.read (c :: rest)).wellFormed
    · rw [if_pos hwf, if_pos (haccepts _ ((Literal.proper_read _).text_mem hwf))]
    · have hnone : ¬ (Literal.read (c :: rest)).mantissa.wellFormed := fun hdigit =>
        hwf (by rw [wellFormed_eq, hdigit]; simpa using hdigits)
      have htext :=
        Literal.text_read_of_no_digit (by simpa [isNumberStart] using hstart) hnone
      rw [if_neg hwf, htext, if_neg (by simp [hpoint])]

/-! ## One read -/

/-- A read tells lexemes apart. -/
theorem reading_injective (pos : Nat) : Function.Injective (reading pos) := by
  intro lexeme other h
  have htext := congrArg Reading.text h
  rw [text_reading, text_reading] at htext
  cases lexeme <;> cases other <;> simp_all [reading, text]

end Lexeme

/-- **Reading takes the longest lexeme**, wherever a cursor stands in a source.
It skips the longest run of blanks and gives what the rest begins with. Any
check of literals that accepts those of the language, and not a point alone,
rejects nothing but that point. -/
theorem nextToken_takes_longest_lexeme (accepts : List Char → Bool)
    (haccepts : ∀ word ∈ Literal.language, accepts word)
    (hpoint : accepts [Literal.point] = false) (source : List Char) (cursor : Cursor)
    (hcursor : cursor.place.In source) :
    ∃ blanks rest, cursor.ahead = blanks ++ rest ∧ (∀ c ∈ blanks, Text.isBlank c) ∧
      (∀ c ∈ rest.head?, ¬ Text.isBlank c) ∧
      (∀ lexeme, Lexeme.Begins rest lexeme ↔
        cursor.nextToken.1 = lexeme.reading (cursor.pos + blanks.length)) ∧
      (rest = [] → cursor.nextToken.1 = .ok ⟨.endOfInput, source.length, ""⟩) ∧
      ∀ c ∈ rest.head?, Lexeme.isNumberStart c →
        cursor.nextToken.1 = (Lexeme.ofLiteral accepts (Literal.read rest)).reading
          (cursor.pos + blanks.length) ∧
        (¬ (Literal.read rest).exponent.any (·.digits.isEmpty) →
          (accepts (Literal.read rest).text = false ↔
            (Literal.read rest).text = [Literal.point])) := by
  have hread : cursor.nextToken.1 = (Lexeme.read cursor.skipBlanks.ahead).reading
      cursor.skipBlanks.pos := congrArg Prod.fst cursor.nextToken_eq
  rw [Cursor.pos_skipBlanks] at hread
  refine ⟨cursor.ahead.takeWhile Text.isBlank, cursor.skipBlanks.ahead, ?_,
    List.all_eq_true.1 List.all_takeWhile, cursor.not_isBlank_skipBlanks, fun lexeme => ?_,
    fun hnil => ?_, fun c hc hstart => ?_⟩
  · rw [Cursor.ahead_skipBlanks, List.takeWhile_append_dropWhile]
  · rw [hread, (Lexeme.reading_injective _).eq_iff]
    exact ⟨fun h => h.eq_read.symm, fun h => h ▸ Lexeme.begins_read _⟩
  · have hpos := ((Cursor.in_skipBlanks hcursor).ahead_eq_nil_iff).1 hnil
    have hfront : cursor.skipBlanks.pos = source.length := hpos
    rw [Cursor.pos_skipBlanks] at hfront
    rw [hread, hnil, hfront]
    rfl
  · obtain ⟨rest, hrest⟩ : ∃ rest, cursor.skipBlanks.ahead = c :: rest :=
      List.head?_eq_some_iff.1 hc
    rw [hrest] at hread ⊢
    rw [hread, Lexeme.ofLiteral_read haccepts hpoint hstart]
    exact ⟨rfl, Lexeme.accepts_eq_false_iff haccepts hpoint hstart⟩

/-- A point ends a number before a letter, for an exponent follows digits only. -/
theorem nextToken_takes_point_before_letter :
    (∀ word ∈ Literal.language, Literal.isNumber word) ∧ Literal.isNumber [Literal.point] = false ∧
      (Cursor.ofSource [' ', '1', '.', 'e', '5']).place.In [' ', '1', '.', 'e', '5'] ∧
      (Cursor.ofSource [' ', '1', '.', 'e', '5']).nextToken.1 = .ok ⟨.number, 1, "1."⟩ ∧
      ∃ blanks rest, [' ', '1', '.', 'e', '5'] = blanks ++ rest ∧
        (∀ c ∈ blanks, Text.isBlank c) ∧ (∀ c ∈ rest.head?, ¬ Text.isBlank c) ∧
        ∀ lexeme, Lexeme.Begins rest lexeme ↔
          .ok ⟨.number, 1, "1."⟩ = lexeme.reading (0 + blanks.length) := by
  have haccepts : ∀ word ∈ Literal.language, Literal.isNumber word :=
    fun _ => Literal.isNumber_of_mem
  have hread : (Cursor.ofSource [' ', '1', '.', 'e', '5']).nextToken.1 =
      .ok ⟨.number, 1, "1."⟩ := by
    cbv
  have hin : (Cursor.ofSource [' ', '1', '.', 'e', '5']).place.In [' ', '1', '.', 'e', '5'] :=
    ⟨Nat.zero_le _, rfl⟩
  obtain ⟨blanks, rest, happend, hblank, hstop, hiff, -⟩ :=
    nextToken_takes_longest_lexeme Literal.isNumber haccepts (by decide) _ _ hin
  rw [hread] at hiff
  exact ⟨haccepts, by decide, hin, hread, blanks, rest, happend, hblank, hstop, hiff⟩

end Calculator
