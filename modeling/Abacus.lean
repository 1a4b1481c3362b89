import Abacus.Arithmetic
import Abacus.Calculation
import Abacus.CommandLine
import Abacus.CommandLine.Options
import Abacus.Config
import Abacus.Config.Load
import Abacus.Config.Session
import Abacus.Datum
import Abacus.Datum.Json
import Abacus.Datum.Stamp
import Abacus.Decimal
import Abacus.Decimal.Layout
import Abacus.Decimal.Shortest
import Abacus.Expr
import Abacus.Expr.Grammar
import Abacus.Expr.Node
import Abacus.Expr.Printer
import Abacus.Expr.Value
import Abacus.Lexeme
import Abacus.Lexeme.Spelling
import Abacus.Main
import Abacus.Numeral
import Abacus.Numeral.Free
import Abacus.Operator
import Abacus.Parser
import Abacus.Parser.Call
import Abacus.Proofs.Balance
import Abacus.Proofs.Calculation
import Abacus.Proofs.CommandLine.Endings
import Abacus.Proofs.CommandLine.Lines
import Abacus.Proofs.CommandLine.Output
import Abacus.Proofs.Composition
import Abacus.Proofs.Config.History
import Abacus.Proofs.Config.Layers
import Abacus.Proofs.Config.Merging
import Abacus.Proofs.Decimal.Layout
import Abacus.Proofs.Decimal.Reading
import Abacus.Proofs.Decimal.Signed
import Abacus.Proofs.Double.Arithmetic
import Abacus.Proofs.Double.Packing
import Abacus.Proofs.Double.Sign
import Abacus.Proofs.Evaluation
import Abacus.Proofs.Fault
import Abacus.Proofs.Image
import Abacus.Proofs.Juxtaposition
import Abacus.Proofs.Lookahead
import Abacus.Proofs.Neighbours
import Abacus.Proofs.Numeral
import Abacus.Proofs.Parser.Completeness
import Abacus.Proofs.Parser.Conservation
import Abacus.Proofs.Parser.Counting
import Abacus.Proofs.Parser.Frame
import Abacus.Proofs.Parser.Postfix
import Abacus.Proofs.Parser.Refusal
import Abacus.Proofs.Parser.Remains
import Abacus.Proofs.Parser.Settling
import Abacus.Proofs.Parser.Soundness
import Abacus.Proofs.Parser.Stacking
import Abacus.Proofs.Parser.Substitution
import Abacus.Proofs.Parser.Verdict
import Abacus.Proofs.Placement
import Abacus.Proofs.Printing
import Abacus.Proofs.Roots
import Abacus.Proofs.Segmentation
import Abacus.Proofs.Tokenization
import Abacus.Proofs.Unambiguity
import Abacus.Proofs.Writing
import Abacus.Text.Blank
import Abacus.Text.Case
import Abacus.Text.Digit
import Abacus.Text.Printable
import Abacus.Text.Quoted
import Abacus.Token
import Abacus.Token.Label
import Abacus.Token.Reading
import Abacus.Yaml.Base64
import Abacus.Yaml.Cursor
import Abacus.Yaml.Document
import Abacus.Yaml.Fault
import Abacus.Yaml.Graph
import Abacus.Yaml.Resolve
import Abacus.Yaml.Scalar
import Abacus.Yaml.Stamp
import Abacus.Yaml.Token
