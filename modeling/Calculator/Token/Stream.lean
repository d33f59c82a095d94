import Calculator.Token.Lexeme
/-!
# Token streams

The tokens of a source, up to what ends them: the end of the input, or the
first thing that is no token. `tokenize` gives the whole list with its end
token, or the error.
-/

namespace Calculator

/-- The tokens of a source in order, and what follows the last of them. -/
structure TokenStream where
  tokens : List Token
  ending : Except (Located LexError) Token
deriving Repr

namespace TokenStream

/-- The tokens ahead of a cursor. -/
def ofCursor (cursor : Cursor) : TokenStream :=
  match h : cursor.nextToken with
  | (.error error, _) => ⟨[], .error error⟩
  | (.ok token, after) =>
    if hkind : token.kind = .endOfInput then ⟨[], .ok token⟩
    else
      have := Cursor.length_ahead_nextToken h hkind
      let rest := ofCursor after
      ⟨token :: rest.tokens, rest.ending⟩
termination_by cursor.ahead.length

/-- The tokens of a source. -/
def ofString (source : String) : TokenStream := ofCursor (.ofString source)

/-- The tokens and their end as one list, unless an error ends them. -/
def toExcept (stream : TokenStream) : Except (Located LexError) (List Token) :=
  stream.ending.map fun last => stream.tokens ++ [last]

end TokenStream

/-- **The tokens of a source**, the last of which is the end of the input. -/
def tokenize (source : String) : Except (Located LexError) (List Token) :=
  (TokenStream.ofString source).toExcept

end Calculator
