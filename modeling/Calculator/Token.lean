import Calculator.Source.Span
/-!
# Tokens

A token is a piece of the source that the grammar reads as one: a number,
an identifier, a symbol of one character, or the end of the input, which
holds no text. `Kind.ofChar?` and `Kind.symbol?` are the table of symbols,
read either way (`Kind.ofChar?_eq_some`).
-/

namespace Calculator

/-- What the grammar tells tokens apart by. -/
inductive Kind where
  | endOfInput
  | number
  | identifier
  | plus
  | minus
  | star
  | slash
  | openParen
  | closeParen
  | bang
  | caret
  | comma
deriving DecidableEq, Repr

namespace Kind

/-- The character of a token that is one character. -/
def symbol? : Kind → Option Char
  | endOfInput | number | identifier => none
  | plus => some '+'
  | minus => some '-'
  | star => some '*'
  | slash => some '/'
  | openParen => some '('
  | closeParen => some ')'
  | bang => some '!'
  | caret => some '^'
  | comma => some ','

/-- The kind of the token that a character is on its own. -/
def ofChar? : Char → Option Kind
  | '+' => some plus
  | '-' => some minus
  | '*' => some star
  | '/' => some slash
  | '(' => some openParen
  | ')' => some closeParen
  | '!' => some bang
  | '^' => some caret
  | ',' => some comma
  | _ => none

/-- **One table of symbols**, read from the character and from the kind. -/
theorem ofChar?_eq_some {c : Char} {kind : Kind} :
    ofChar? c = some kind ↔ kind.symbol? = some c := by
  constructor
  · unfold ofChar?
    split <;> simp only [Option.some.injEq, reduceCtorEq, false_implies] <;> rintro rfl <;> rfl
  · cases kind <;> simp only [symbol?, Option.some.injEq, reduceCtorEq, false_implies] <;>
      rintro rfl <;> rfl

/-- A symbol in a message is quoted, and the other kinds are described. -/
def text (kind : Kind) : String :=
  match kind with
  | endOfInput => "end of input"
  | number => "number"
  | identifier => "identifier"
  | _ => "`" ++ String.ofList kind.symbol?.toList ++ "`"

/-- An operand can begin with a token of this kind; a sign is not part of one. -/
def startsOperand : Kind → Bool
  | number | identifier | openParen => true
  | _ => false

end Kind

/-- A token: its kind, the position it starts at, and its text in the source. -/
structure Token where
  kind : Kind
  start : Nat
  text : String
deriving DecidableEq, Repr

namespace Token

/-- The position after the last character. -/
def stop (token : Token) : Nat := token.start + token.text.length

/-- The characters the token is. The end of the input is none. -/
def span (token : Token) : Span := ⟨token.start, token.stop⟩

end Token

end Calculator
