import Calculator.Text.CaseTable
/-!
# Lower case

The full lower case of a text, which is what two spellings of one name
share. Three rules make it: a letter of ASCII has its small form
(`Char.toLower`), any other letter the one the table gives it, except
that the dotted capital I becomes two characters; and the capital sigma
becomes the final small sigma where it ends a word, and the ordinary one
elsewhere. Only that last rule looks at the neighbours of a letter.
-/

namespace Calculator

namespace Text

/-- The letter has case, and a search for a letter stops at it. -/
def isCased (c : Char) : Bool := inRanges cased c.toNat

/-- A search for the neighbouring letter passes over this character. -/
def isCaseIgnorable (c : Char) : Bool := inRanges caseIgnorable c.toNat

/-- The first character that is not passed over is a letter with case. -/
def meetsLetter (s : List Char) : Bool :=
  match s.dropWhile isCaseIgnorable with
  | [] => false
  | c :: _ => isCased c

/-- The small form of a character on its own, which is one character but
for the dotted capital I. -/
def smallForm (c : Char) : List Char :=
  if c.toNat < 0x80 then [c.toLower]
  else if c == 'İ' then ['i', '\u0307']
  else
    match caseRuns.find? (·.holds c.toNat) with
    | some run => [Char.ofNat (c.toNat + run.shift).toNat]
    | none => [c]

/-- The small form of a character in its place: a capital sigma with a
letter before it and none after it ends its word. -/
def smallFormAt (before : List Char) (c : Char) (after : List Char) : List Char :=
  if c == 'Σ' && meetsLetter before && !meetsLetter after then ['ς'] else smallForm c

/-- The lower case of a text that follows the characters `before`, which
are listed last first. -/
def lowerCaseAfter (before : List Char) : List Char → List Char
  | [] => []
  | c :: after => smallFormAt before c after ++ lowerCaseAfter (c :: before) after

/-- **The full lower case of a text.** -/
def lowerCase (s : String) : String := .ofList (lowerCaseAfter [] s.toList)

end Text

end Calculator
