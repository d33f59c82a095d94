import Calculator.Text.Blank
/-!
# Commands

A line is split into words by its blanks, and its first word says what the
line asks for. `exit`, `quit` and `vars` are commands only where they stand
alone; `set` always is one. Any other line is an expression.
-/

namespace Calculator

/-- What a line asks for. -/
inductive Command where
  | nothing
  | leave
  | listVariables
  | assign (name expression : String)
  | evaluate (source : String)
deriving DecidableEq, Repr

namespace Command

open Text

/-- The words that leave. -/
def leaveWords : List String := ["exit", "quit"]

/-- The word that lists the variables. -/
def listWord : String := "vars"

/-- The word that assigns. -/
def assignWord : String := "set"

/-- The first word of a text that begins with no blank, and the rest without
the blanks around it. -/
def firstWord (s : List Char) : List Char × List Char :=
  match splitBlank? s with
  | some (word, rest) => (word, trim rest)
  | none => (s, [])

/-- An assignment, from what follows its first word: a name, then an
expression of at least one word. -/
def ofAssignment? (rest : List Char) : Option Command :=
  match splitBlank? rest with
  | none => none
  | some (name, after) =>
    let expression := trim after
    if expression.isEmpty then none
    else some (assign (.ofList name) (.ofList expression))

/-- **The command of a line**, or none if an assignment lacks a part. -/
def ofLine? (line : String) : Option Command :=
  let source := trim line.toList
  let (first, rest) := firstWord source
  let word := String.ofList first
  if word = "" then some nothing
  else if word ∈ leaveWords ∧ rest = [] then some leave
  else if word = listWord ∧ rest = [] then some listVariables
  else if word = assignWord then ofAssignment? rest
  else some (evaluate (.ofList source))

end Command

end Calculator
