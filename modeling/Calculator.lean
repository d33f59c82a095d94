import Calculator.Evaluation
import Calculator.Expr
import Calculator.Expr.Eval
import Calculator.Grammar.Descent
import Calculator.Grammar.Error
import Calculator.Grammar.Machine
import Calculator.Grammar.Parse
import Calculator.Grammar.Pending
import Calculator.Main
import Calculator.Number.Binary64
import Calculator.Number.Display
import Calculator.Number.Literal
import Calculator.Number.Shortest
import Calculator.Session
import Calculator.Session.Builtins
import Calculator.Session.Command
import Calculator.Source.Cursor
import Calculator.Source.Span
import Calculator.Symbol.Context
import Calculator.Symbol.Operation
import Calculator.Symbol.Table
import Calculator.Text.Blank
import Calculator.Text.CaseTable
import Calculator.Text.LowerCase
import Calculator.Token
import Calculator.Token.Lexeme
import Calculator.Token.Source
import Calculator.Token.Stream
import Calculator.Proofs.Evaluation.KeptTree
import Calculator.Proofs.Evaluation.LetterCase
import Calculator.Proofs.Evaluation.Resolution
import Calculator.Proofs.Grammar.Completeness
import Calculator.Proofs.Grammar.Completion
import Calculator.Proofs.Grammar.Composition
import Calculator.Proofs.Grammar.Derivation
import Calculator.Proofs.Grammar.Descent
import Calculator.Proofs.Grammar.Diagnosis
import Calculator.Proofs.Grammar.Layout
import Calculator.Proofs.Grammar.Names
import Calculator.Proofs.Grammar.OnDemand
import Calculator.Proofs.Grammar.Pairing
import Calculator.Proofs.Grammar.Parsing
import Calculator.Proofs.Grammar.Pull
import Calculator.Proofs.Grammar.Refusal
import Calculator.Proofs.Grammar.Run
import Calculator.Proofs.Grammar.Soundness
import Calculator.Proofs.Grammar.Spelling
import Calculator.Proofs.Number.Language
import Calculator.Proofs.Number.Unsigned
import Calculator.Proofs.Symbol.History
import Calculator.Proofs.Symbol.Update
import Calculator.Proofs.Text.LetterCase
import Calculator.Proofs.Token.Boundary
import Calculator.Proofs.Token.LetterCase
import Calculator.Proofs.Token.Munch
import Calculator.Proofs.Token.Reading
import Calculator.Proofs.Token.Scan
import Calculator.Proofs.Token.Source
import Calculator.Proofs.Token.Tiling
import Calculator.Proofs.Grammar.Reach
import Calculator.Proofs.Grammar.Extension
import Calculator.Proofs.Grammar.Spans
import Calculator.Proofs.Session.Run
import Calculator.Proofs.Session.Builtins
import Calculator.Proofs.Session.Variables
import Calculator.Proofs.Symbol.Batch
import Calculator.Proofs.Evaluation.Checks
import Calculator.Proofs.Text.Words
import Calculator.Proofs.Session.Command
import Calculator.Proofs.Session.Lines
import Calculator.Proofs.Session.Idle
import Calculator.Proofs.Evaluation.Factorial
import Calculator.Proofs.Number.Order
import Calculator.Proofs.Number.Positive
import Calculator.Proofs.Session.VariableNames
import Calculator.Proofs.Source.Place
import Calculator.Proofs.Source.Steps
import Calculator.Proofs.Source.Moves
import Calculator.Proofs.Token.Walk
import Calculator.Proofs.Grammar.Trace
import Calculator.Proofs.Grammar.Headway
import Calculator.Proofs.Grammar.Fuel
