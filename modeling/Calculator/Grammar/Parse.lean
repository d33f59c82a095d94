import Calculator.Grammar.Machine
import Calculator.Token.Stream
/-!
# Parsing

`parse` feeds the tokens of a source to a machine, each as it is read, so
of two errors the one further left is reported, lexical or not.
`parseStream` feeds it a stream of tokens that is there already.
-/

namespace Calculator

namespace Machine

/-- Feeds the machine the tokens ahead of a cursor, up to the end of the
input or the first error. -/
def run (context : Context) (machine : Machine) (cursor : Cursor) :
    Except (Located SyntaxError) Expr :=
  match h : cursor.nextToken with
  | (.error error, _) => .error (error.map .lexical)
  | (.ok token, after) =>
    if hkind : token.kind = .endOfInput then machine.finish token
    else
      have := Cursor.length_ahead_nextToken h hkind
      match machine.step context token with
      | .error error => .error error
      | .ok machine => run context machine after
termination_by cursor.ahead.length

/-- Feeds the machine a stream of tokens, up to its end or the first error. -/
def runStream (context : Context) (machine : Machine) (stream : TokenStream) :
    Except (Located SyntaxError) Expr :=
  (stream.tokens.foldlM (step context) machine).bind fun machine =>
    match stream.ending with
    | .ok token => machine.finish token
    | .error error => .error (error.map .lexical)

end Machine

/-- **The expression a source is**, in a context. -/
def parse (context : Context) (source : String) : Except (Located SyntaxError) Expr :=
  Machine.start.run context (.ofString source)

/-- The expression a stream of tokens is. -/
def parseStream (context : Context) (stream : TokenStream) : Except (Located SyntaxError) Expr :=
  Machine.start.runStream context stream

end Calculator
