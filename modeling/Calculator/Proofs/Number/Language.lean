import Mathlib
import Calculator.Number.Literal
/-!
# The language of number literals

What a number literal is, said as a language of words rather than by
reading: digits, a point with digits after it or before it, and an exponent
where a digit precedes it. What `Literal.read` takes is what the text begins
with (`Literal.text_read_append`), and it is the longest word of the
language there (`Literal.isLongest_read`), unless an exponent was begun and
has no digits; then the longest is what precedes it
(`Literal.isLongest_mantissa`).
-/

namespace Calculator

/-- **The longest word of a language that a text begins with.** -/
structure IsLongest (language : Language Char) (source word : List Char) : Prop where
  mem : word ∈ language
  begins : word <+: source
  longest : ∀ other ∈ language, other <+: source → other.length ≤ word.length

/-- There is only one. -/
theorem IsLongest.unique {language : Language Char} {source word other : List Char}
    (h : IsLongest language source word) (h' : IsLongest language source other) : word = other := by
  have hle := h.longest other h'.mem h'.begins
  have hge := h'.longest word h.mem h.begins
  have hbegins : word <+: other := List.prefix_of_prefix_length_le h.begins h'.begins hge
  exact hbegins.eq_of_length (by omega)

/-! ## Words -/

/-- Words of digits, the empty one among them. -/
def digitWords : Language Char := {word | ∀ c ∈ word, c.isDigit}

/-- Words of one digit or more. -/
def someDigits : Language Char := {word | word ≠ [] ∧ ∀ c ∈ word, c.isDigit}

/-- The digits that a text begins with are digits. -/
theorem takeWhile_mem_digitWords (source : List Char) :
    source.takeWhile Char.isDigit ∈ digitWords :=
  List.all_eq_true.1 List.all_takeWhile

/-- And some, unless they are none. -/
theorem mem_someDigits {word : List Char} (hne : word ≠ []) (h : word ∈ digitWords) :
    word ∈ someDigits :=
  ⟨hne, h⟩

/-- No digits are digits. -/
theorem nil_mem_digitWords : [] ∈ digitWords :=
  nofun

/-- The words of one letter out of two. -/
theorem letter_mem_pair {a b c : Char} : [c] ∈ ({[a], [b]} : Language Char) ↔ c = a ∨ c = b := by
  change [c] = [a] ∨ [c] = [b] ↔ _
  simp

variable {word digits rest source : List Char}

/-- A run of characters that does not go on with the rest is the run before it. -/
theorem takeWhile_append_of_stop {p : Char → Bool} (source : List Char)
    (h : ∀ c ∈ rest.head?, p c = false) :
    (source ++ rest).takeWhile p = source.takeWhile p := by
  induction source with
  | nil =>
    cases rest with
    | nil => rfl
    | cons c rest => simp [h c rfl]
  | cons c source ih => simp [List.takeWhile_cons, ih]

/-- And what follows the run is followed by the rest. -/
theorem dropWhile_append_of_stop {p : Char → Bool} (source : List Char)
    (h : ∀ c ∈ rest.head?, p c = false) :
    (source ++ rest).dropWhile p = source.dropWhile p ++ rest := by
  induction source with
  | nil =>
    cases rest with
    | nil => rfl
    | cons c rest => simp [h c rfl]
  | cons c source ih =>
    rw [List.cons_append, List.dropWhile_cons, List.dropWhile_cons, ih]
    split <;> rfl

/-- Digits that something else follows are the longest run. -/
theorem takeWhile_digits_append (h : digits ∈ digitWords)
    (hrest : ∀ c ∈ rest.head?, c.isDigit = false) :
    (digits ++ rest).takeWhile Char.isDigit = digits := by
  rw [takeWhile_append_of_stop digits hrest, List.takeWhile_eq_self_iff]
  exact h

/-- What follows them is then all that is left. -/
theorem dropWhile_digits_append (h : digits ∈ digitWords)
    (hrest : ∀ c ∈ rest.head?, c.isDigit = false) :
    (digits ++ rest).dropWhile Char.isDigit = rest := by
  rw [dropWhile_append_of_stop digits hrest, List.dropWhile_eq_nil_iff.2 h, List.nil_append]

/-! ## Exponents -/

namespace Exponent

/-- The letter that opens an exponent. -/
def isMark (c : Char) : Bool := c == 'e' || c == 'E'

/-- **An exponent as it may be written**: a letter, a sign or none, and digits. -/
def language : Language Char := {['e'], ['E']} * (1 + {['+'], ['-']}) * someDigits

/-- The letter, the sign and the digits of an exponent. -/
theorem mem_language : word ∈ language ↔
    ∃ exponent : Exponent, word = exponent.text ∧ isMark exponent.letter ∧
      (∀ c ∈ exponent.sign, isSign c) ∧ exponent.digits ∈ someDigits := by
  constructor
  · rintro ⟨_, ⟨letter, hletter, sign, hsign, rfl⟩, digits, hdigits, rfl⟩
    rcases hletter with rfl | rfl <;> rcases hsign with rfl | rfl | rfl
    · exact ⟨⟨'e', none, digits⟩, rfl, rfl, by simp, hdigits⟩
    · exact ⟨⟨'e', some '+', digits⟩, rfl, rfl, by simp [isSign], hdigits⟩
    · exact ⟨⟨'e', some '-', digits⟩, rfl, rfl, by simp [isSign], hdigits⟩
    · exact ⟨⟨'E', none, digits⟩, rfl, rfl, by simp, hdigits⟩
    · exact ⟨⟨'E', some '+', digits⟩, rfl, rfl, by simp [isSign], hdigits⟩
    · exact ⟨⟨'E', some '-', digits⟩, rfl, rfl, by simp [isSign], hdigits⟩
  · rintro ⟨⟨letter, sign, digits⟩, rfl, hletter, hsign, hdigits⟩
    refine ⟨[letter] ++ sign.toList, ⟨[letter], ?_, sign.toList, ?_, rfl⟩, digits, hdigits, ?_⟩
    · exact letter_mem_pair.2 (by simpa [isMark] using hletter)
    · cases sign with
      | none => exact .inl rfl
      | some c => exact .inr (letter_mem_pair.2 (by simpa [isSign] using hsign))
    · simp [text]

/-- What is read as an exponent is what the text begins with. -/
theorem text_begins_of_read? {exponent : Exponent} (h : read? source = some exponent) :
    exponent.text <+: source := by
  unfold read? at h
  split at h
  · cases h
  · rename_i letter rest
    split at h
    · split at h
      · cases h
        simp [text]
      · rename_i sign digits
        split at h
        · cases h
          simpa [text] using List.takeWhile_prefix Char.isDigit
        · cases h
          simpa [text] using List.takeWhile_prefix Char.isDigit
    · cases h

/-- The parts of what is read. -/
theorem parts_of_read? {exponent : Exponent} (h : read? source = some exponent) :
    isMark exponent.letter ∧ (∀ c ∈ exponent.sign, isSign c) ∧ exponent.digits ∈ digitWords := by
  unfold read? at h
  split at h
  · cases h
  · split at h
    · rename_i letter rest hletter
      split at h
      · cases h
        exact ⟨hletter, by simp, nil_mem_digitWords⟩
      · split at h
        · rename_i sign digits hsign
          cases h
          exact ⟨hletter, by simpa using hsign, takeWhile_mem_digitWords _⟩
        · cases h
          exact ⟨hletter, by simp, takeWhile_mem_digitWords _⟩
    · cases h

/-- **A written exponent is read again**, with the digits that go on after it. -/
theorem read?_text_append {exponent : Exponent} (hletter : isMark exponent.letter)
    (hsign : ∀ c ∈ exponent.sign, isSign c) (hdigits : exponent.digits ∈ someDigits)
    (rest : List Char) :
    read? (exponent.text ++ rest) = some ⟨exponent.letter, exponent.sign,
      exponent.digits ++ rest.takeWhile Char.isDigit⟩ := by
  obtain ⟨letter, sign, digits⟩ := exponent
  obtain ⟨hne, hall⟩ := hdigits
  have hletter' : (letter == 'e' || letter == 'E') = true := hletter
  cases sign with
  | some c =>
    have hc : isSign c = true := hsign c rfl
    simp [read?, text, hletter', hc, List.takeWhile_append_of_pos hall]
  | none =>
    cases digits with
    | nil => exact absurd rfl hne
    | cons d ds =>
      have hd : isSign d = false := by
        have : d.isDigit = true := hall d (by simp)
        cases hs : isSign d
        · rfl
        · simp only [isSign, Bool.or_eq_true, beq_iff_eq] at hs
          rcases hs with rfl | rfl <;> exact absurd this (by decide)
      have htake : (d :: (ds ++ rest)).takeWhile Char.isDigit =
          d :: ds ++ rest.takeWhile Char.isDigit := List.takeWhile_append_of_pos hall
      simp [read?, text, hletter', hd, htake]

/-- The letter of an exponent is followed by its sign, if there is one. -/
theorem read?_cons {letter : Char} (h : isMark letter) (rest : List Char) :
    ∃ digits, read? (letter :: rest) = some ⟨letter, rest.head?.filter isSign, digits⟩ := by
  have hletter : (letter == 'e' || letter == 'E') = true := h
  cases rest with
  | nil => exact ⟨[], by simp [read?, hletter]⟩
  | cons c rest => cases hsign : isSign c <;> simp [read?, hletter, hsign, Option.filter]

end Exponent

namespace Literal

/-- **A literal as it may be written.** An exponent may follow a digit, so
none may follow a point that ends the literal. -/
def language : Language Char :=
  (someDigits + digitWords * {[point]} * someDigits) * (1 + Exponent.language) +
    someDigits * {[point]}

/-! ### What reading takes -/

/-- The text of the fraction that is read. -/
theorem fraction_append (source : List Char) :
    ((readFraction? source).map (point :: ·)).getD [] ++
      source.drop (((readFraction? source).map (·.length + 1)).getD 0) = source := by
  cases source with
  | nil => rfl
  | cons c rest =>
    simp only [readFraction?]
    split
    · rename_i hpoint
      obtain rfl : c = point := by simpa using hpoint
      have hbegins : rest.takeWhile Char.isDigit <+: rest := List.takeWhile_prefix _
      simpa using List.prefix_iff_eq_append.1 hbegins
    · simp

/-- **A text is its literal and the rest**: up to the exponent there is always
one to read, and the exponent is read from what follows. -/
theorem exists_mantissa_append (source : List Char) : ∃ rest,
    source = (read source).mantissaText ++ rest ∧
      (read source).exponent =
        if endsInDigit (read source).whole (read source).fraction then Exponent.read? rest
        else none := by
  refine ⟨_, ?_, rfl⟩
  have hfraction := fraction_append (source.dropWhile Char.isDigit)
  calc source = source.takeWhile Char.isDigit ++ source.dropWhile Char.isDigit :=
        List.takeWhile_append_dropWhile.symm
    _ = (read source).mantissaText ++ _ := by
        rw [mantissaText, List.append_assoc]
        exact congrArg _ hfraction.symm

/-- **What is read is what the text begins with.** -/
theorem text_read_begins (source : List Char) : (read source).text <+: source := by
  obtain ⟨rest, hsource, hexponent⟩ := exists_mantissa_append source
  have hrest : ((read source).exponent.map Exponent.text).getD [] <+: rest := by
    rw [hexponent]
    split
    · cases hread : Exponent.read? rest with
      | none => simp
      | some exponent => exact Exponent.text_begins_of_read? hread
    · simp
  rw [text]
  conv => rhs; rw [hsource]
  obtain ⟨later, rfl⟩ := hrest
  exact ⟨later, List.append_assoc _ _ _⟩

/-! ### Literals whose parts are as they should be -/

/-- **The parts of a literal are in place**: digits where digits stand, and
an exponent only after a digit. -/
structure Proper (literal : Literal) : Prop where
  whole : literal.whole ∈ digitWords
  fraction : ∀ digits ∈ literal.fraction, digits ∈ digitWords
  exponent : ∀ exponent ∈ literal.exponent,
    endsInDigit literal.whole literal.fraction ∧ Exponent.isMark exponent.letter ∧
      (∀ c ∈ exponent.sign, Exponent.isSign c) ∧ exponent.digits ∈ digitWords

/-- **What is read has its parts in place.** -/
theorem proper_read (source : List Char) : (read source).Proper where
  whole := takeWhile_mem_digitWords _
  fraction digits h := by
    change readFraction? _ = _ at h
    unfold readFraction? at h
    split at h
    · cases h
    · split at h
      · cases h
        exact takeWhile_mem_digitWords _
      · cases h
  exponent exponent h := by
    obtain ⟨rest, -, hexponent⟩ := exists_mantissa_append source
    rw [hexponent, Option.mem_def] at h
    split at h
    · rename_i hdigit
      exact ⟨hdigit, Exponent.parts_of_read? h⟩
    · cases h

/-- A literal is well formed if it has a digit, and one in its exponent. -/
theorem wellFormed_iff {literal : Literal} : literal.wellFormed ↔
    (literal.whole ≠ [] ∨ literal.fraction.getD [] ≠ []) ∧
      ∀ exponent ∈ literal.exponent, exponent.digits ≠ [] := by
  obtain ⟨whole, fraction, _ | exponent⟩ := literal
  · simp [wellFormed]
  · simp [wellFormed]

/-- An exponent may be missing. -/
theorem mem_one_add_exponent : word ∈ 1 + Exponent.language ↔
    ∃ exponent : Option Exponent, word = (exponent.map Exponent.text).getD [] ∧
      ∀ e ∈ exponent, Exponent.isMark e.letter ∧ (∀ c ∈ e.sign, Exponent.isSign c) ∧
        e.digits ∈ someDigits := by
  rw [Language.mem_add, Language.mem_one, Exponent.mem_language]
  constructor
  · rintro (rfl | ⟨exponent, rfl, h⟩)
    · exact ⟨none, rfl, nofun⟩
    · exact ⟨some exponent, rfl, by simpa using h⟩
  · rintro ⟨_ | exponent, rfl, h⟩
    · exact .inl rfl
    · exact .inr ⟨exponent, rfl, h exponent rfl⟩

/-- A literal that is well formed is a word of the language. -/
theorem Proper.text_mem {literal : Literal} (h : literal.Proper) (hwf : literal.wellFormed) :
    literal.text ∈ language := by
  obtain ⟨whole, fraction, exponent⟩ := literal
  obtain ⟨hwhole, hfraction, hexponent⟩ := h
  obtain ⟨hdigit, hdigits⟩ := wellFormed_iff.1 hwf
  have htail : (exponent.map Exponent.text).getD [] ∈ 1 + Exponent.language := by
    refine mem_one_add_exponent.2 ⟨exponent, rfl, fun e he => ?_⟩
    obtain ⟨-, hmark, hsign, hall⟩ := hexponent e he
    exact ⟨hmark, hsign, mem_someDigits (hdigits e he) hall⟩
  rcases fraction with _ | _ | ⟨d, ds⟩
  · have hne : whole ≠ [] := by simpa using hdigit
    refine .inl ⟨whole, .inl (mem_someDigits hne hwhole), _, htail, ?_⟩
    simp [text, mantissaText]
  · -- No exponent follows the point.
    have hne : whole ≠ [] := by simpa using hdigit
    cases exponent with
    | none =>
      refine .inr ⟨whole, mem_someDigits hne hwhole, [point], rfl, ?_⟩
      simp [text, mantissaText]
    | some e => exact absurd (hexponent e rfl).1 (by simp [endsInDigit])
  · have hdigits : d :: ds ∈ someDigits := mem_someDigits (by simp) (hfraction _ rfl)
    refine .inl ⟨whole ++ [point] ++ d :: ds,
      .inr ⟨whole ++ [point], ⟨whole, hwhole, [point], rfl, rfl⟩, d :: ds, hdigits, rfl⟩,
      _, htail, ?_⟩
    simp [text, mantissaText]

/-- And every word is such a literal. -/
theorem exists_of_mem_language (h : word ∈ language) :
    ∃ literal : Literal, literal.Proper ∧ literal.wellFormed ∧ word = literal.text := by
  rcases h with ⟨mantissa, hmantissa, _, htail, rfl⟩ | ⟨whole, ⟨hne, hwhole⟩, _, rfl, rfl⟩
  · obtain ⟨exponent, rfl, hexponent⟩ := mem_one_add_exponent.1 htail
    have hdigits (e : Exponent) (he : e ∈ exponent) : e.digits ≠ [] := (hexponent e he).2.2.1
    rcases hmantissa with ⟨hne, hwhole⟩ | ⟨_, ⟨whole, hwhole, _, rfl, rfl⟩, digits, hfraction, rfl⟩
    · refine ⟨⟨mantissa, none, exponent⟩, ⟨hwhole, by simp, fun e he => ?_⟩,
        wellFormed_iff.2 ⟨.inl hne, hdigits⟩, by simp [text, mantissaText]⟩
      obtain ⟨hmark, hsign, -, hall⟩ := hexponent e he
      exact ⟨by simpa [endsInDigit] using hne, hmark, hsign, hall⟩
    · obtain ⟨hne, hall⟩ := hfraction
      refine ⟨⟨whole, some digits, exponent⟩, ⟨hwhole, ?_, fun e he => ?_⟩,
        wellFormed_iff.2 ⟨.inr hne, hdigits⟩, by simp [text, mantissaText]⟩
      · rintro _ ⟨⟩
        exact hall
      · obtain ⟨hmark, hsign, -, hall⟩ := hexponent e he
        exact ⟨by simpa [endsInDigit] using hne, hmark, hsign, hall⟩
  · exact ⟨⟨whole, some [], none⟩, ⟨hwhole, by simp [nil_mem_digitWords], by simp⟩,
      wellFormed_iff.2 ⟨.inl hne, by simp⟩, by simp [text, mantissaText]⟩

/-! ### Reading is longest -/

/-- The literal without its exponent. -/
def mantissa (literal : Literal) : Literal := { literal with exponent := none }

@[simp] theorem text_mantissa (literal : Literal) :
    literal.mantissa.text = literal.mantissaText := by
  simp [text, mantissa, mantissaText]

theorem Proper.mantissa {literal : Literal} (h : literal.Proper) : literal.mantissa.Proper :=
  ⟨h.whole, h.fraction, nofun⟩

/-- **What is written before an exponent is found again** before anything that
does not go on with it. -/
theorem parts_of_mantissaText_append {literal : Literal} (h : literal.Proper)
    (hdigit : ∀ c ∈ rest.head?, c.isDigit = false)
    (hpoint : literal.fraction = none → ∀ c ∈ rest.head?, c ≠ point) :
    (literal.mantissaText ++ rest).takeWhile Char.isDigit = literal.whole ∧
      readFraction? ((literal.mantissaText ++ rest).dropWhile Char.isDigit) = literal.fraction ∧
      ((literal.mantissaText ++ rest).dropWhile Char.isDigit).drop
        ((literal.fraction.map (·.length + 1)).getD 0) = rest := by
  obtain ⟨whole, _ | digits, exponent⟩ := literal
  · have hnone : readFraction? rest = none := by
      cases rest with
      | nil => rfl
      | cons c rest => simpa [readFraction?] using hpoint rfl c rfl
    simp [mantissaText, takeWhile_digits_append h.whole hdigit,
      dropWhile_digits_append h.whole hdigit, hnone]
  · have hstop : ∀ c ∈ (point :: (digits ++ rest)).head?, c.isDigit = false := by
      rintro _ ⟨⟩
      decide
    have hfraction : digits ∈ digitWords := h.fraction digits rfl
    simp [mantissaText, takeWhile_digits_append h.whole hstop,
      dropWhile_digits_append h.whole hstop, readFraction?,
      takeWhile_digits_append hfraction hdigit]

/-- So it is read again. -/
theorem read_mantissaText_append {literal : Literal} (h : literal.Proper)
    (hdigit : ∀ c ∈ rest.head?, c.isDigit = false)
    (hpoint : literal.fraction = none → ∀ c ∈ rest.head?, c ≠ point) :
    read (literal.mantissaText ++ rest) = ⟨literal.whole, literal.fraction,
      if endsInDigit literal.whole literal.fraction then Exponent.read? rest else none⟩ := by
  obtain ⟨hwhole, hfraction, hrest⟩ := parts_of_mantissaText_append h hdigit hpoint
  unfold read
  dsimp only
  rw [hwhole, hfraction, hrest]

/-- A letter opens an exponent, so it goes on with nothing before it. -/
theorem not_digit_of_mark {exponent : Exponent} (hmark : Exponent.isMark exponent.letter)
    (rest : List Char) : ∀ c ∈ (exponent.text ++ rest).head?, c.isDigit = false ∧ c ≠ point := by
  rintro _ ⟨⟩
  rcases (by simpa [Exponent.isMark] using hmark :
    exponent.letter = 'e' ∨ exponent.letter = 'E') with h | h <;> rw [h] <;> decide

/-- What is read is no shorter than a literal that the text begins with. It may
end before an exponent only if that literal has none. -/
theorem length_text_le_read {literal : Literal} (h : literal.Proper) (hwf : literal.wellFormed)
    (rest : List Char) :
    literal.text.length ≤ (read (literal.text ++ rest)).mantissaText.length ∨
      (read (literal.text ++ rest)).wellFormed ∧
        literal.text.length ≤ (read (literal.text ++ rest)).text.length := by
  obtain ⟨hdigit, hdigits⟩ := wellFormed_iff.1 hwf
  obtain ⟨whole, fraction, _ | e⟩ := literal
  · left
    rcases fraction with _ | digits
    · simp [text, mantissaText, read, List.takeWhile_append_of_pos h.whole]
    · have hstop : ∀ c ∈ (point :: (digits ++ rest)).head?, c.isDigit = false := by
        rintro _ ⟨⟩
        decide
      have hfraction : digits ∈ digitWords := h.fraction digits rfl
      simp [text, mantissaText, read, takeWhile_digits_append h.whole hstop,
        dropWhile_digits_append h.whole hstop, readFraction?,
        List.takeWhile_append_of_pos hfraction]
  · right
    obtain ⟨hends, hmark, hsign, hall⟩ := h.exponent e rfl
    have hstop := not_digit_of_mark hmark rest
    have hread := read_mantissaText_append h.mantissa (fun c hc => (hstop c hc).1)
      fun _ c hc => (hstop c hc).2
    rw [Exponent.read?_text_append hmark hsign (mem_someDigits (hdigits e rfl) hall)] at hread
    have htext : text ⟨whole, fraction, some e⟩ ++ rest =
        (mantissa ⟨whole, fraction, some e⟩).mantissaText ++ (e.text ++ rest) := by
      simp [text, mantissa, mantissaText]
    rw [htext, hread]
    simp only [mantissa, hends, if_true]
    refine ⟨wellFormed_iff.2 ⟨hdigit, ?_⟩, ?_⟩
    · rintro _ ⟨⟩
      simp [hdigits e rfl]
    · simp [text, mantissaText, Exponent.text]

/-- **What is read is no shorter than any word of the language** that the text
begins with. -/
theorem length_le_read_of_mem (h : word ∈ language) (hbegins : word <+: source) :
    word.length ≤ (read source).mantissaText.length ∨
      (read source).wellFormed ∧ word.length ≤ (read source).text.length := by
  obtain ⟨literal, hproper, hwf, rfl⟩ := exists_of_mem_language h
  obtain ⟨rest, rfl⟩ := hbegins
  exact length_text_le_read hproper hwf rest

/-- The text of a literal begins with what precedes the exponent. -/
theorem mantissaText_begins (literal : Literal) : literal.mantissaText <+: literal.text :=
  List.prefix_append _ _

/-- **What is read is the longest literal there**, if it is one. -/
theorem isLongest_read (hwf : (read source).wellFormed) :
    IsLongest language source (read source).text where
  mem := (proper_read source).text_mem hwf
  begins := text_read_begins source
  longest other hother hbegins := by
    have := (mantissaText_begins (read source)).length_le
    rcases length_le_read_of_mem hother hbegins with hle | ⟨-, hle⟩ <;> omega

/-- **Otherwise it is what precedes the exponent**, if there is a digit. -/
theorem isLongest_mantissa (hdigit : (read source).mantissa.wellFormed)
    (hwf : ¬ (read source).wellFormed) : IsLongest language source (read source).mantissaText where
  mem := by
    have := (proper_read source).mantissa.text_mem hdigit
    rwa [text_mantissa] at this
  begins := (mantissaText_begins _).trans (text_read_begins source)
  longest other hother hbegins := by
    rcases length_le_read_of_mem hother hbegins with hle | ⟨h, -⟩
    · exact hle
    · exact absurd h hwf

/-- A word of the language has a digit. -/
theorem exists_digit_of_mem (h : word ∈ language) : ∃ c ∈ word, c.isDigit := by
  obtain ⟨⟨whole, fraction, exponent⟩, hproper, hwf, rfl⟩ := exists_of_mem_language h
  rcases (wellFormed_iff.1 hwf).1 with hne | hne
  · obtain ⟨c, hc⟩ := List.exists_mem_of_ne_nil _ hne
    exact ⟨c, by simp [text, mantissaText, hc], hproper.whole c hc⟩
  · obtain ⟨c, hc⟩ := List.exists_mem_of_ne_nil _ hne
    cases fraction with
    | none => cases hc
    | some digits =>
      have hc : c ∈ digits := hc
      exact ⟨c, by simp [text, mantissaText, hc], hproper.fraction digits rfl c hc⟩

/-- **And without a digit no literal is there.** -/
theorem not_begins_of_no_digit (hdigit : ¬ (read source).mantissa.wellFormed) :
    ∀ other ∈ language, ¬ other <+: source := by
  intro other hother hbegins
  rw [wellFormed_iff] at hdigit
  have hnone : (read source).whole = [] ∧ (read source).fraction.getD [] = [] := by
    simpa [mantissa, imp_iff_not_or] using hdigit
  have hlength : other.length ≤ (read source).mantissaText.length := by
    rcases length_le_read_of_mem hother hbegins with hle | ⟨hwf, -⟩
    · exact hle
    · rcases (wellFormed_iff.1 hwf).1 with h | h
      · exact absurd hnone.1 h
      · exact absurd hnone.2 h
  -- What precedes the exponent is at most a point, and the word has a digit.
  have hin : other <+: (read source).mantissaText :=
    List.prefix_of_prefix_length_le hbegins
      ((mantissaText_begins _).trans (text_read_begins source)) hlength
  obtain ⟨c, hc, hcdigit⟩ := exists_digit_of_mem hother
  have hpoint : c = point := by
    have hmem := hin.subset hc
    rw [mantissaText, hnone.1, List.nil_append] at hmem
    cases hfraction : (read source).fraction with
    | none => simp [hfraction] at hmem
    | some digits =>
      obtain rfl : digits = [] := by simpa [hfraction] using hnone.2
      simpa [hfraction] using hmem
  rw [hpoint] at hcdigit
  exact absurd hcdigit (by decide)

/-- **Every word of the language is a number** as a whole. -/
theorem isNumber_of_mem (h : word ∈ language) : isNumber word := by
  obtain ⟨literal, hproper, hwf, rfl⟩ := exists_of_mem_language h
  have hrest : ∀ c ∈ ((literal.exponent.map Exponent.text).getD []).head?,
      c.isDigit = false ∧ c ≠ point := by
    cases he : literal.exponent with
    | none => nofun
    | some e =>
      obtain ⟨-, hmark, -, -⟩ := hproper.exponent e he
      have := not_digit_of_mark hmark []
      rwa [List.append_nil] at this
  have hexponent : Exponent.read? ((literal.exponent.map Exponent.text).getD []) =
      literal.exponent := by
    cases he : literal.exponent with
    | none => rfl
    | some e =>
      obtain ⟨-, hmark, hsign, hdigits⟩ := hproper.exponent e he
      have hsome := mem_someDigits ((wellFormed_iff.1 hwf).2 e he) hdigits
      have := Exponent.read?_text_append hmark hsign hsome []
      simpa using this
  obtain ⟨hwhole, hfraction, hafter⟩ := parts_of_mantissaText_append hproper
    (fun c hc => (hrest c hc).1) fun _ c hc => (hrest c hc).2
  unfold isNumber
  rw [← text] at hwhole hfraction hafter
  simp only [hwhole, hfraction, hafter, hexponent]
  simp [hwf]

/-! ### Exponents without digits -/

/-- **An exponent goes on after a number** that has none: the number ends in a
digit, and the letter that opens an exponent follows it. -/
structure Dangles (source number : List Char) (letter : Char) (after : List Char) : Prop where
  split : source = number ++ letter :: after
  mark : Exponent.isMark letter
  no_exponent : ∀ c ∈ number, ¬ Exponent.isMark c
  ends_in_digit : ∃ c ∈ number.getLast?, c.isDigit

/-- A digit comes last before the exponent where an exponent may follow. -/
theorem Proper.endsInDigit_iff {literal : Literal} (h : literal.Proper) :
    endsInDigit literal.whole literal.fraction ↔
      ∃ c ∈ literal.mantissaText.getLast?, c.isDigit := by
  obtain ⟨whole, fraction, exponent⟩ := literal
  rcases fraction with _ | _ | ⟨d, ds⟩
  · cases hlast : whole.getLast? with
    | none => simp [endsInDigit, mantissaText, List.getLast?_eq_none_iff.1 hlast]
    | some c =>
      have hmem : c ∈ whole := List.mem_of_getLast? hlast
      simp [endsInDigit, mantissaText, hlast, h.whole c hmem, List.ne_nil_of_mem hmem]
  · simp only [endsInDigit, mantissaText, Option.map_some, Option.getD_some,
      List.getLast?_concat, List.isEmpty_nil, Bool.not_true, Bool.false_eq_true, false_iff]
    rintro ⟨_, ⟨⟩, hpoint⟩
    exact absurd hpoint (by decide)
  · obtain ⟨c, hlast⟩ := Option.ne_none_iff_exists'.1
      (List.getLast?_eq_none_iff.not.2 (List.cons_ne_nil d ds))
    have hmem : c ∈ d :: ds := List.mem_of_getLast? hlast
    have htext : (whole ++ point :: d :: ds).getLast? = some c := by
      rw [List.append_cons, List.getLast?_append, hlast]
      rfl
    simp [endsInDigit, mantissaText, htext, h.fraction _ rfl c hmem]

/-- There is no letter before the exponent. -/
theorem Proper.not_mark_of_mem {literal : Literal} (h : literal.Proper) :
    ∀ c ∈ literal.mantissaText, ¬ Exponent.isMark c := by
  intro c hc hmark
  have hdigit : c.isDigit ∨ c = point := by
    rcases List.mem_append.1 hc with hc | hc
    · exact .inl (h.whole c hc)
    · cases hfraction : literal.fraction with
      | none => simp [hfraction] at hc
      | some digits =>
        have hc : c = point ∨ c ∈ digits := by simpa [hfraction] using hc
        exact hc.symm.imp_left (h.fraction digits hfraction c)
  rcases (by simpa [Exponent.isMark] using hmark : c = 'e' ∨ c = 'E') with rfl | rfl <;>
    exact absurd hdigit (by decide)

/-- **An exponent without digits goes on after what precedes it**, and it is
read with its letter and its sign. -/
theorem dangles_of_not_wellFormed (hdigit : (read source).mantissa.wellFormed)
    (hwf : ¬ (read source).wellFormed) : ∃ letter after,
      Dangles source (read source).mantissaText letter after ∧
        (read source).text = (read source).mantissaText ++
          letter :: (after.head?.filter Exponent.isSign).toList := by
  have hproper := proper_read source
  obtain ⟨rest, hsource, hexponent⟩ := exists_mantissa_append source
  -- The only thing that can be wrong is an exponent without digits.
  have hwrong : ∃ e, (read source).exponent = some e ∧ e.digits = [] := by
    have hsome := (wellFormed_iff.1 hdigit).1
    have hnot := fun hall => hwf (wellFormed_iff.2 ⟨hsome, hall⟩)
    simpa using hnot
  obtain ⟨e, he, hnone⟩ := hwrong
  obtain ⟨hends, hmark, -, -⟩ := hproper.exponent e he
  rw [he, if_pos hends] at hexponent
  obtain ⟨more, hrest⟩ := Exponent.text_begins_of_read? hexponent.symm
  have hread := hexponent.symm
  rw [← hrest] at hread hsource
  obtain ⟨digits, hcons⟩ := Exponent.read?_cons hmark (e.sign.toList ++ e.digits ++ more)
  have htext : e.text ++ more = e.letter :: (e.sign.toList ++ e.digits ++ more) := rfl
  rw [htext, hcons, Option.some.injEq] at hread
  refine ⟨e.letter, e.sign.toList ++ e.digits ++ more, ⟨hsource, hmark, hproper.not_mark_of_mem,
    hproper.endsInDigit_iff.1 hends⟩, ?_⟩
  have hsign := congrArg Exponent.sign hread
  dsimp only at hsign
  rw [text, he, hsign]
  simp [Exponent.text, hnone]

/-- **No exponent goes on after what is read**: reading would have gone on
with it. -/
theorem not_dangles_text (source : List Char) :
    ¬ ∃ letter after, Dangles source (read source).text letter after := by
  rintro ⟨letter, after, hsplit, hmark, hnone, hdigit⟩
  obtain ⟨rest, hsource, hexponent⟩ := exists_mantissa_append source
  cases he : (read source).exponent with
  | some e =>
    -- The literal has an exponent, whose letter is in it.
    obtain ⟨-, hletter, -, -⟩ := (proper_read source).exponent e he
    refine hnone e.letter ?_ hletter
    simp [text, he, Exponent.text]
  | none =>
    have htext : (read source).text = (read source).mantissaText := by simp [text, he]
    rw [htext] at hdigit hsplit
    rw [if_pos ((proper_read source).endsInDigit_iff.2 hdigit), he] at hexponent
    obtain rfl : rest = letter :: after :=
      List.append_cancel_left (hsource.symm.trans hsplit)
    obtain ⟨digits, hcons⟩ := Exponent.read?_cons hmark after
    rw [hcons] at hexponent
    cases hexponent

/-- **Without a digit only a point is read**, if the text begins as a number. -/
theorem text_read_of_no_digit {c : Char} (hstart : c.isDigit ∨ c = point)
    (hdigit : ¬ (read (c :: rest)).mantissa.wellFormed) : (read (c :: rest)).text = [point] := by
  rw [wellFormed_iff] at hdigit
  have hnone : (read (c :: rest)).whole = [] ∧ (read (c :: rest)).fraction.getD [] = [] := by
    simpa [mantissa, imp_iff_not_or] using hdigit
  have hc : c.isDigit = false := by
    cases h : c.isDigit
    · rfl
    · simp [read, h] at hnone
  obtain rfl : c = point := hstart.resolve_left (by simp [hc])
  have hfraction : rest.takeWhile Char.isDigit = [] := by
    simpa [read, hc, readFraction?] using hnone.2
  simp [read, hc, readFraction?, hfraction, endsInDigit, text, mantissaText]

end Literal

end Calculator
