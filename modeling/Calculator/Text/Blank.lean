/-!
# Blank characters

Blank characters separate words and carry nothing else. They are the
twenty-five code points of the `White_Space` property, of which core
calls only four white space. A text is a `List Char` here: `trim` drops
the blanks at both of its ends, and `splitBlank?` cuts it at its first
blank.
-/

namespace Calculator

namespace Text

/-- **The `White_Space` property.** -/
def isBlank (c : Char) : Bool :=
  let n := c.toNat
  (9 ≤ n && n ≤ 13) || n == 0x20 || n == 0x85 || n == 0xA0 || n == 0x1680 ||
    (0x2000 ≤ n && n ≤ 0x200A) || n == 0x2028 || n == 0x2029 || n == 0x202F || n == 0x205F ||
    n == 0x3000

/-- Drops the blanks a text begins with. -/
def trimStart (s : List Char) : List Char := s.dropWhile isBlank

/-- Drops the blanks a text ends with. -/
def trimEnd (s : List Char) : List Char := (s.reverse.dropWhile isBlank).reverse

/-- Drops the blanks at both ends and keeps those between. -/
def trim (s : List Char) : List Char := trimEnd (trimStart s)

/-- The text before the first blank and the text after it, if there is a
blank. That blank itself belongs to neither. -/
def splitBlank? (s : List Char) : Option (List Char × List Char) :=
  match s.dropWhile (!isBlank ·) with
  | [] => none
  | _ :: after => some (s.takeWhile (!isBlank ·), after)

end Text

end Calculator
