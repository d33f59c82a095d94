/-!
# Number literals

A literal is digits, a point with digits after it, and an exponent; each
of the three may be missing. `Literal.read` takes the longest one a text
begins with, `wellFormed` says whether what it took is a number, and
`value` is the number it denotes. Digits are those of ASCII.
-/

namespace Calculator

/-- The exponent of a literal: the letter that opens it, its sign and its digits. -/
structure Exponent where
  letter : Char
  sign : Option Char
  digits : List Char
deriving DecidableEq, Repr

/-- A number literal, in the parts it is written in. -/
structure Literal where
  whole : List Char
  fraction : Option (List Char)
  exponent : Option Exponent
deriving DecidableEq, Repr

namespace Exponent

/-- The exponent as it is written. -/
def text (exponent : Exponent) : List Char :=
  exponent.letter :: (exponent.sign.toList ++ exponent.digits)

/-- The sign that may open the digits. -/
def isSign (c : Char) : Bool := c == '+' || c == '-'

/-- Reads an exponent, which the letter opens. The digits may be missing,
and that is for the literal to judge. -/
def read? : List Char → Option Exponent
  | [] => none
  | letter :: rest =>
    if letter == 'e' || letter == 'E' then
      match rest with
      | [] => some ⟨letter, none, []⟩
      | sign :: digits =>
        if isSign sign then some ⟨letter, some sign, digits.takeWhile Char.isDigit⟩
        else some ⟨letter, none, rest.takeWhile Char.isDigit⟩
    else none

end Exponent

namespace Literal

/-- The point between the whole part and the fraction. -/
def point : Char := '.'

/-- The literal up to its exponent, as it is written. -/
def mantissaText (literal : Literal) : List Char :=
  literal.whole ++ (literal.fraction.map (point :: ·)).getD []

/-- **The literal as it is written.** -/
def text (literal : Literal) : List Char :=
  literal.mantissaText ++ (literal.exponent.map Exponent.text).getD []

/-- Only digits may be followed by an exponent: the fraction has some, or,
without a point, the whole part. -/
def endsInDigit (whole : List Char) (fraction : Option (List Char)) : Bool :=
  !(fraction.getD whole).isEmpty

/-- Reads the fraction, which the point opens. -/
def readFraction? : List Char → Option (List Char)
  | [] => none
  | c :: rest => if c == point then some (rest.takeWhile Char.isDigit) else none

/-- **The longest literal a text begins with.** -/
def read (source : List Char) : Literal :=
  let whole := source.takeWhile Char.isDigit
  let afterWhole := source.dropWhile Char.isDigit
  let fraction := readFraction? afterWhole
  let afterFraction := afterWhole.drop ((fraction.map (·.length + 1)).getD 0)
  let exponent := if endsInDigit whole fraction then Exponent.read? afterFraction else none
  ⟨whole, fraction, exponent⟩

/-- There is a digit before the exponent, and one in it if there is one. -/
def wellFormed (literal : Literal) : Bool :=
  !(literal.whole.isEmpty && (literal.fraction.getD []).isEmpty) &&
    literal.exponent.all (!·.digits.isEmpty)

/-- **Whether the whole of a text is a number** without a sign: digits, a point
before, among or after them, and an exponent or none. A literal is one, and so
is a text whose exponent follows a point. -/
def isNumber (source : List Char) : Bool :=
  let whole := source.takeWhile Char.isDigit
  let afterWhole := source.dropWhile Char.isDigit
  let fraction := readFraction? afterWhole
  let afterFraction := afterWhole.drop ((fraction.map (·.length + 1)).getD 0)
  let literal : Literal := ⟨whole, fraction, Exponent.read? afterFraction⟩
  literal.wellFormed && literal.text == source

/-- A well-formed literal is written with at least a digit. -/
theorem text_ne_nil {literal : Literal} (h : literal.wellFormed) : literal.text ≠ [] := by
  obtain ⟨whole, fraction, exponent⟩ := literal
  cases whole <;> cases fraction <;> simp_all [wellFormed, text, mantissaText]

/-- The natural number that digits denote. -/
def natOfDigits (digits : List Char) : Nat :=
  digits.foldl (fun n c => 10 * n + (c.toNat - '0'.toNat)) 0

/-- The power of ten of the exponent, none being the zeroth. -/
def power (literal : Literal) : Int :=
  match literal.exponent with
  | none => 0
  | some exponent =>
    let magnitude : Int := natOfDigits exponent.digits
    if exponent.sign == some '-' then -magnitude else magnitude

/-- **The number a literal denotes**, rounded to the nearest float, and to
the even one of two that are equally near: all its digits as one integer,
times ten to the exponent less the places after the point. -/
def value (literal : Literal) : Float :=
  let fraction := literal.fraction.getD []
  let shift := literal.power - fraction.length
  Float.ofScientific (natOfDigits (literal.whole ++ fraction)) (shift < 0) shift.natAbs

/-- The number the text of a literal denotes. -/
def valueOf (source : String) : Float := (read source.toList).value

end Literal

end Calculator
