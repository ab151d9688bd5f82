import Bracketed.Associativity
import Bracketed.Binary64
import Bracketed.Decimal
import Bracketed.Description
import Bracketed.Error
import Bracketed.EvalError
import Bracketed.Evaluation.Fold
import Bracketed.Evaluation.Item
import Bracketed.Evaluation.Reduction
import Bracketed.Evaluation.Run
import Bracketed.Expression
import Bracketed.Forest
import Bracketed.Forest.OfTokens
import Bracketed.Format
import Bracketed.Format.Registry
import Bracketed.Grouping
import Bracketed.Json
import Bracketed.Json.Escape
import Bracketed.Json.Printer
import Bracketed.Json.Reader
import Bracketed.Node
import Bracketed.Operator
import Bracketed.ParseError
import Bracketed.Parser
import Bracketed.Scanner
import Bracketed.Proofs.Arena
import Bracketed.Proofs.Evaluation.Acceptance
import Bracketed.Proofs.Evaluation.Agreement
import Bracketed.Proofs.Evaluation.Calls
import Bracketed.Proofs.Evaluation.Consumption
import Bracketed.Proofs.Evaluation.Events
import Bracketed.Proofs.Evaluation.Fault
import Bracketed.Proofs.Evaluation.Homomorphism
import Bracketed.Proofs.Evaluation.Interior
import Bracketed.Proofs.Evaluation.Nesting
import Bracketed.Proofs.Evaluation.Outcome
import Bracketed.Proofs.Evaluation.Outline
import Bracketed.Proofs.Evaluation.Position
import Bracketed.Proofs.Evaluation.Reading
import Bracketed.Proofs.Evaluation.RunLaws
import Bracketed.Proofs.Evaluation.Spacing
import Bracketed.Proofs.Evaluation.Wrapping
import Bracketed.Proofs.Fault
import Bracketed.Proofs.Growth
import Bracketed.Proofs.Grammar
import Bracketed.Proofs.Json.Escape
import Bracketed.Proofs.Json.Reading
import Bracketed.Proofs.Matching
import Bracketed.Proofs.Outline
import Bracketed.Proofs.Preorder
import Bracketed.Proofs.Scan
import Bracketed.Proofs.Scan.Interior
import Bracketed.Proofs.Scan.Matching
import Bracketed.Proofs.Scan.OfTokens
import Bracketed.Proofs.Scan.Parse
import Bracketed.Proofs.Scan.Preorder
import Bracketed.Proofs.Scan.Rendering
import Bracketed.Proofs.Scan.Scanner
import Bracketed.Proofs.Scan.Snapshot
import Bracketed.Proofs.Scan.Spacing
import Bracketed.Proofs.Scan.Tiling
import Bracketed.Proofs.Scan.Tokens
import Bracketed.Proofs.Scan.Wrapping
import Bracketed.Proofs.Scanner
import Bracketed.Proofs.Snapshot
import Bracketed.Proofs.Snapshot.Json
import Bracketed.Proofs.SourceContext
import Bracketed.Proofs.Term
import Bracketed.Proofs.Text.Lines
import Bracketed.Proofs.Text.Trim
import Bracketed.Proofs.Tiling
import Bracketed.Search.Loader
import Bracketed.Search.Query
import Bracketed.Search.Settings
import Bracketed.Settings
import Bracketed.Settings.Error
import Bracketed.Settings.KeyPath
import Bracketed.Settings.Merge
import Bracketed.Settings.Reading
import Bracketed.Snapshot
import Bracketed.Snapshot.Drawing
import Bracketed.Snapshot.Json
import Bracketed.Snapshot.OfExpression
import Bracketed.Snapshot.Yaml
import Bracketed.SortedMap
import Bracketed.SourceContext
import Bracketed.Span
import Bracketed.Text.Blank
import Bracketed.Text.CharRanges
import Bracketed.Text.DefaultIgnorable
import Bracketed.Text.GraphemeExtend
import Bracketed.Text.Lines
import Bracketed.Text.Lowercase
import Bracketed.Text.Lowercase.Cased
import Bracketed.Text.Lowercase.Mapping
import Bracketed.Text.Numeral
import Bracketed.Text.Occurs
import Bracketed.Text.Printable
import Bracketed.Text.Quoted
import Bracketed.Token
import Bracketed.Token.Lexer
import Bracketed.Toml.DateTime
import Bracketed.Toml.Reader
import Bracketed.Toml.Scalar
import Bracketed.Toml.Strings
import Bracketed.Toml.Tree
import Bracketed.Toml.Value
import Bracketed.Yaml.Resolution
import Bracketed.Yaml.Scalar
import Bracketed.Proofs.Scan.Values
import Bracketed.Proofs.Evaluation.Values
import Bracketed.Proofs.Scan.Shadowing
import Bracketed.Proofs.Scan.OpenGroups
import Bracketed.Proofs.Scan.Completion
import Bracketed.Proofs.Scan.Joining
import Bracketed.Proofs.Evaluation.Regrouping
import Bracketed.Proofs.Evaluation.Joining
import Bracketed.Proofs.Evaluation.Missing
import Bracketed.Proofs.Drawing
import Bracketed.Proofs.Snapshot.Drawing
import Bracketed.Proofs.Scan.Drawing
import Bracketed.Proofs.SourceContext.Caret
import Bracketed.Proofs.Format.Registry
import Bracketed.Proofs.Evaluation.Polarity
import Bracketed.Proofs.Text.Lowercase
import Bracketed.Proofs.Search.Words
import Bracketed.Proofs.Settings.Names
import Bracketed.Proofs.Settings.Merge
import Bracketed.Proofs.Settings.Reading
import Bracketed.Proofs.Toml.Names
import Bracketed.Proofs.Search.Layers
import Bracketed.Proofs.Search.Loader
import Bracketed.Evaluation.Slot
import Bracketed.Evaluation.Reducer
import Bracketed.Proofs.Evaluation.Reducing
import Bracketed.Proofs.Evaluation.Slots
import Bracketed.Proofs.Evaluation.Depth
import Bracketed.Proofs.Evaluation.Folding
import Bracketed.Proofs.Evaluation.Safety
import Bracketed.Proofs.Evaluation.Termination
