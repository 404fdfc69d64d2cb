import Calculator.Arithmetic.Operation
import Calculator.Arithmetic.Operator
import Calculator.Arithmetic.Primitive
import Calculator.Binary64.Basic
import Calculator.Binary64.Integral
import Calculator.CommandLine.Basic
import Calculator.Decimal.Basic
import Calculator.Elementary.Approximation
import Calculator.Elementary.Circular
import Calculator.Elementary.Exponential
import Calculator.Elementary.Gamma
import Calculator.Elementary.Logarithm
import Calculator.Elementary.Power
import Calculator.Evaluation.Basic
import Calculator.Evaluation.Stack
import Calculator.Evaluation.Trace
import Calculator.Evaluation.Words
import Calculator.Failure
import Calculator.Main
import Calculator.Names
import Calculator.Numeral
import Calculator.Scope
import Calculator.Session.Command
import Calculator.Session.Help
import Calculator.Session.Line
import Calculator.Session.Transcript
import Calculator.Settings.Basic
import Calculator.Settings.Definitions
import Calculator.Settings.Sources
import Calculator.Statistics
import Calculator.Text.Quoted
import Calculator.Text.Words
import Calculator.Token.Basic
import Calculator.Token.Scan
import Calculator.Unicode.Alphanumeric
import Calculator.Unicode.Cased
import Calculator.Unicode.DecimalDigit
import Calculator.Unicode.Lowercase
import Calculator.Unicode.Printable
import Calculator.Unicode.Ranges
import Calculator.Unicode.Whitespace
import Calculator.Proofs.Traced
import Calculator.Proofs.Settling
import Calculator.Proofs.Accounting
import Calculator.Proofs.Reachable
import Calculator.Proofs.Isolation
import Calculator.Proofs.Parsing
import Calculator.Proofs.Recognition
import Calculator.Proofs.Interpretation
import Calculator.Proofs.Faults
import Calculator.Proofs.Numerals
import Calculator.Proofs.Slices
import Calculator.Proofs.Decomposition
import Calculator.Proofs.Positions
import Calculator.Proofs.Pieces
import Calculator.Proofs.Scopes
import Calculator.Proofs.Words
import Calculator.Proofs.Substitution
import Calculator.Proofs.Commands
import Calculator.Proofs.Sessions
import Calculator.Proofs.Updates
import Calculator.Proofs.Applications
import Calculator.Proofs.Joining
import Calculator.Proofs.Spacing
import Calculator.Proofs.Spellings
import Calculator.Proofs.Histories
import Calculator.Proofs.Options
import Calculator.Proofs.Validation
import Calculator.Proofs.Arities
import Calculator.Proofs.Encoding
import Calculator.Proofs.Rounding
import Calculator.Proofs.Shortest
import Calculator.Proofs.Display
import Calculator.Proofs.Segments
import Calculator.Proofs.Overrides
import Calculator.Proofs.Unpacking
import Calculator.Proofs.Signs
import Calculator.Proofs.Products
import Calculator.Proofs.Magnitudes
import Calculator.Proofs.Overflow
