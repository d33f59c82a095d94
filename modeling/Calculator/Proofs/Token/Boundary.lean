import Calculator.Proofs.Token.Munch
/-!
# Where lexemes end

No lexeme goes on with a blank or a symbol, so what is read before one is read
there whatever else follows (`Lexeme.read_append`). What is read is a word: a
symbol, an identifier or a number literal (`Lexeme.isWord_of_read`). Words are
read back as they were written, each before a boundary and a symbol before
anything (`Lexeme.IsWord.read_append`).
-/

namespace Calculator

variable {c : Char} {source rest text : List Char} {kind : Kind}

namespace Lexeme

/-- **The character ends what is before it**: a blank or a symbol. -/
def isBoundary (c : Char) : Bool := Text.isBlank c || (Kind.ofChar? c).isSome

/-- The text, if there is any, begins where a lexeme before it ends. -/
def Bounds (rest : List Char) : Prop := ∀ c ∈ rest.head?, isBoundary c

theorem bounds_nil : Bounds [] :=
  nofun

theorem bounds_cons (h : isBoundary c) : Bounds (c :: rest) := by
  rintro _ ⟨⟩
  exact h

/-! ## What goes on with a lexeme -/

/-- Characters of identifiers are no blanks. -/
theorem not_isBlank_of_part (h : isIdentifierPart c) : Text.isBlank c = false := by
  simp only [isIdentifierPart, Char.isAlphanum, Char.isAlpha, Char.isUpper, Char.isLower,
    Char.isDigit, ge_iff_le, Bool.or_eq_true, Bool.and_eq_true, decide_eq_true_eq, beq_iff_eq,
    UInt32.le_iff_toNat_le] at h
  change (((65 ≤ c.toNat ∧ c.toNat ≤ 90) ∨ (97 ≤ c.toNat ∧ c.toNat ≤ 122)) ∨
    (48 ≤ c.toNat ∧ c.toNat ≤ 57)) ∨ c = '_' at h
  rcases h with h | rfl
  · rw [← Bool.not_eq_true]
    simp only [Text.isBlank, Bool.or_eq_true, Bool.and_eq_true, decide_eq_true_eq, beq_iff_eq]
    omega
  · decide

/-- And no symbols. -/
theorem ofChar?_of_part (h : isIdentifierPart c) : Kind.ofChar? c = none := by
  cases hkind : Kind.ofChar? c with
  | none => rfl
  | some kind =>
    have hsymbol := Kind.ofChar?_eq_some.1 hkind
    exfalso
    revert h
    cases kind <;> cases hsymbol <;> decide

/-- **So no identifier goes on at a boundary.** -/
theorem not_part_of_boundary (h : isBoundary c) : isIdentifierPart c = false := by
  rw [← Bool.not_eq_true]
  intro hpart
  simp [isBoundary, not_isBlank_of_part hpart, ofChar?_of_part hpart] at h

/-- Nor do digits. -/
theorem not_digit_of_boundary (h : isBoundary c) : c.isDigit = false := by
  have hpart := not_part_of_boundary h
  simp only [isIdentifierPart, Char.isAlphanum, Bool.or_eq_false_iff] at hpart
  exact hpart.1.2

/-- Nor does an exponent, which begins with a letter. -/
theorem not_mark_of_boundary (h : isBoundary c) : (c == 'e' || c == 'E') = false := by
  rw [← Bool.not_eq_true]
  intro hmark
  rcases (by simpa using hmark : c = 'e' ∨ c = 'E') with rfl | rfl
  · exact absurd h (by decide)
  · exact absurd h (by decide)

/-- Nor a fraction. -/
theorem ne_point_of_boundary (h : isBoundary c) : c ≠ Literal.point := by
  rintro rfl
  exact absurd h (by decide)

end Lexeme

/-! ## Numbers -/

variable (hrest : Lexeme.Bounds rest)

include hrest

/-- Digits end at a boundary. -/
theorem Lexeme.Bounds.digits : ∀ c ∈ rest.head?, c.isDigit = false :=
  fun c hc => not_digit_of_boundary (hrest c hc)

/-- A fraction does. -/
theorem Literal.readFraction?_append :
    readFraction? (source ++ rest) = readFraction? source := by
  cases source with
  | nil =>
    cases rest with
    | nil => rfl
    | cons c rest =>
      have hpoint : (c == point) = false := by
        simpa using Lexeme.ne_point_of_boundary (hrest c rfl)
      simp [readFraction?, hpoint]
  | cons c source =>
    rw [List.cons_append, readFraction?, readFraction?, takeWhile_append_of_stop _ hrest.digits]

/-- **An exponent that has digits** does, and so does the lack of one. -/
theorem Exponent.read?_append (hdigits : ∀ exponent ∈ read? source, exponent.digits ≠ []) :
    read? (source ++ rest) = read? source := by
  -- A letter alone would go on with a sign in the rest, but it has no digits.
  rcases source with _ | ⟨letter, _ | ⟨sign, source⟩⟩
  · cases rest with
    | nil => rfl
    | cons c rest =>
      have hmark : (c == 'e' || c == 'E') = false := Lexeme.not_mark_of_boundary (hrest c rfl)
      simp [read?, hmark]
  · cases hmark : (letter == 'e' || letter == 'E') with
    | true => exact absurd rfl (hdigits ⟨letter, none, []⟩ (by simp [read?, hmark]))
    | false => simp [read?, hmark]
  · have htake : (sign :: (source ++ rest)).takeWhile Char.isDigit =
        (sign :: source).takeWhile Char.isDigit :=
      takeWhile_append_of_stop (sign :: source) hrest.digits
    simp only [read?, List.cons_append, takeWhile_append_of_stop _ hrest.digits, htake]

/-- **A number ends at a boundary.** -/
theorem Literal.read_append (hwf : (read source).wellFormed) :
    read (source ++ rest) = read source := by
  have hwhole : (source ++ rest).takeWhile Char.isDigit = source.takeWhile Char.isDigit :=
    takeWhile_append_of_stop source hrest.digits
  have hafter : (source ++ rest).dropWhile Char.isDigit =
      source.dropWhile Char.isDigit ++ rest := dropWhile_append_of_stop source hrest.digits
  have hfraction : readFraction? (source.dropWhile Char.isDigit ++ rest) =
      readFraction? (source.dropWhile Char.isDigit) := readFraction?_append hrest
  have hdigits := (wellFormed_iff.1 hwf).2
  unfold read at hdigits ⊢
  dsimp only at hdigits ⊢
  rw [hwhole, hafter, hfraction]
  -- What is dropped before the exponent was read, so it is not part of the rest.
  have hlength : ((readFraction? (source.dropWhile Char.isDigit)).map (·.length + 1)).getD 0 ≤
      (source.dropWhile Char.isDigit).length := by
    cases source.dropWhile Char.isDigit with
    | nil => rfl
    | cons c source =>
      rw [readFraction?]
      split
      · simpa using (List.takeWhile_prefix Char.isDigit).length_le
      · exact Nat.zero_le _
  rw [List.drop_append_of_le_length hlength]
  split at hdigits
  · rename_i hends
    rw [if_pos hends, if_pos hends, Exponent.read?_append hrest hdigits]
  · rename_i hends
    rw [if_neg hends, if_neg hends]

omit hrest

namespace Lexeme

/-! ## Lexemes -/

/-- **What is read before a boundary is read there**, whatever follows. -/
theorem read_append (h : read source = token kind text) (hkind : kind ≠ .endOfInput)
    (hrest : Bounds rest) : read (source ++ rest) = token kind text := by
  cases source with
  | nil =>
    cases h
    exact absurd rfl hkind
  | cons c source =>
    rw [← h, List.cons_append, read, read]
    cases hsymbol : Kind.ofChar? c with
    | some kind => rfl
    | none =>
      dsimp only
      have hpart : ∀ c ∈ rest.head?, isIdentifierPart c = false :=
        fun c hc => not_part_of_boundary (hrest c hc)
      have htake : (c :: (source ++ rest)).takeWhile isIdentifierPart =
          (c :: source).takeWhile isIdentifierPart :=
        takeWhile_append_of_stop (c :: source) hpart
      rw [htake]
      split
      · rename_i hstart
        have hwf : (Literal.read (c :: source)).wellFormed := by
          by_contra hwf
          rw [read, hsymbol] at h
          simp [hstart, hwf] at h
        rw [← List.cons_append, Literal.read_append hrest hwf]
      · rfl

/-- **A lexeme as it may be written**, with its kind: a symbol, an identifier or
a number literal. -/
inductive IsWord : Kind → List Char → Prop
  | symbol {kind : Kind} {c : Char} : kind.symbol? = some c → IsWord kind [c]
  | identifier {name : List Char} : name ∈ identifiers → IsWord .identifier name
  | number {literal : List Char} : literal ∈ Literal.language → IsWord .number literal

/-- A word is a part of the text, so no word is the end of the input. -/
theorem IsWord.kind_ne (h : IsWord kind text) : kind ≠ .endOfInput := by
  cases h with
  | symbol hsymbol =>
    rintro rfl
    cases hsymbol
  | identifier => decide
  | number => decide

/-- A number begins with a digit or a point. -/
theorem isNumberStart_of_mem {literal : List Char} (h : literal ∈ Literal.language) :
    ∃ c rest, literal = c :: rest ∧ isNumberStart c := by
  obtain ⟨⟨whole, fraction, exponent⟩, hproper, hwf, rfl⟩ := Literal.exists_of_mem_language h
  obtain ⟨hdigit, -⟩ := Literal.wellFormed_iff.1 hwf
  cases whole with
  | cons c rest =>
    have hc : c.isDigit := hproper.whole c List.mem_cons_self
    exact ⟨c, _, rfl, by simp [isNumberStart, hc]⟩
  | nil =>
    obtain ⟨digits, rfl⟩ : ∃ digits, fraction = some digits :=
      Option.ne_none_iff_exists'.1 (by rintro rfl; simp at hdigit)
    exact ⟨Literal.point, _, rfl, by decide⟩

/-- **A word on its own is read as it was written.** -/
theorem IsWord.read_eq (h : IsWord kind text) : read text = token kind text := by
  cases h with
  | symbol hsymbol => exact (Begins.symbol hsymbol).eq_read.symm
  | identifier hname =>
    have hlongest : IsLongest identifiers text text :=
      ⟨hname, List.prefix_rfl, fun _ _ hbegins => hbegins.length_le⟩
    obtain ⟨c, rest, rfl, hstart, -⟩ := hname
    exact (Begins.identifier hstart hlongest).eq_read.symm
  | number hliteral =>
    have hlongest : IsLongest Literal.language text text :=
      ⟨hliteral, List.prefix_rfl, fun _ _ hbegins => hbegins.length_le⟩
    -- Nothing follows that an exponent could begin with.
    have hnot : ¬ ∃ letter after, Literal.Dangles text text letter after := by
      rintro ⟨letter, after, hdangles⟩
      have hlength := congrArg List.length hdangles.split
      rw [List.length_append, List.length_cons] at hlength
      omega
    obtain ⟨c, rest, rfl, hstart⟩ := isNumberStart_of_mem hliteral
    exact (Begins.number hstart hlongest hnot).eq_read.symm

/-- **Only words are read**, but for the end of the input. -/
theorem isWord_of_read (h : read source = token kind text) (hkind : kind ≠ .endOfInput) :
    IsWord kind text := by
  have hbegins := begins_read source
  rw [h] at hbegins
  cases hbegins with
  | endOfInput => exact absurd rfl hkind
  | symbol hsymbol => exact .symbol hsymbol
  | identifier _ hlongest => exact .identifier hlongest.mem
  | number _ hlongest _ => exact .number hlongest.mem

/-- A word is not empty. -/
theorem IsWord.ne_nil (h : IsWord kind text) : text ≠ [] :=
  text_ne_nil_of_read h.read_eq h.kind_ne

/-- It does not begin with a blank. -/
theorem IsWord.not_isBlank (h : IsWord kind text) : ∀ c ∈ text.head?, Text.isBlank c = false := by
  cases h with
  | @symbol kind c hsymbol =>
    rintro _ ⟨⟩
    revert hsymbol
    cases kind <;> rintro ⟨⟩ <;> decide
  | identifier hname =>
    obtain ⟨c, rest, rfl, hstart, -⟩ := hname
    rintro _ ⟨⟩
    exact not_isBlank_of_part (isIdentifierPart_of_start hstart)
  | number hliteral =>
    obtain ⟨c, rest, rfl, hstart⟩ := isNumberStart_of_mem hliteral
    rintro _ ⟨⟩
    rcases (by simpa [isNumberStart] using hstart : c.isDigit ∨ c = Literal.point) with h | rfl
    · exact not_isBlank_of_part (by simp [isIdentifierPart, Char.isAlphanum, h])
    · decide

/-- A symbol bounds what is before it. -/
theorem bounds_of_symbol {kind : Kind} (h : kind.symbol? = some c) : Bounds (c :: rest) :=
  bounds_cons (by simp [isBoundary, Kind.ofChar?_eq_some.2 h])

/-- However it was written. -/
theorem IsWord.bounds (h : IsWord kind text) (hsymbol : kind.symbol? ≠ none) :
    Bounds (text ++ rest) := by
  cases h with
  | symbol hsymbol => exact bounds_of_symbol hsymbol
  | identifier => exact absurd rfl hsymbol
  | number => exact absurd rfl hsymbol

/-- So does a blank. -/
theorem bounds_of_blank (h : Text.isBlank c) : Bounds (c :: rest) :=
  bounds_cons (by simp [isBoundary, h])

/-- **A word is read before whatever does not go on with it.** A symbol is read
before anything. -/
theorem IsWord.read_append (h : IsWord kind text) (hrest : kind.symbol? ≠ none ∨ Bounds rest) :
    read (text ++ rest) = token kind text := by
  rcases hrest with hsymbol | hrest
  · cases h with
    | symbol hsymbol => exact (Begins.symbol hsymbol).eq_read.symm
    | identifier => exact absurd rfl hsymbol
    | number => exact absurd rfl hsymbol
  · exact Lexeme.read_append h.read_eq h.kind_ne hrest

end Lexeme

end Calculator
