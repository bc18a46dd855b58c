import TransactLint.Chain
import TransactLint.Configuration
import TransactLint.Configuration.Json
import TransactLint.Cursor
import TransactLint.Document
import TransactLint.Gap
import TransactLint.Grammar.Definition
import TransactLint.Grammar.Execution
import TransactLint.Grammar.Expression
import TransactLint.Grammar.Level
import TransactLint.Grammar.Name
import TransactLint.Grammar.Parser
import TransactLint.Grammar.Query
import TransactLint.Grammar.Script
import TransactLint.Grammar.Statement
import TransactLint.Grammar.TableDefinition
import TransactLint.Grammar.TableSource
import TransactLint.Grammar.Terminals
import TransactLint.Guard
import TransactLint.Json.Number
import TransactLint.Json.Quoted
import TransactLint.Json.Reader
import TransactLint.Json.Skipping
import TransactLint.Json.Value
import TransactLint.Keyword
import TransactLint.Lexeme
import TransactLint.Lexeme.Basic
import TransactLint.Lexeme.Delimited
import TransactLint.Lexeme.Number
import TransactLint.Lexeme.Operator
import TransactLint.Lexeme.Word
import TransactLint.Linter
import TransactLint.Location
import TransactLint.Node.Basic
import TransactLint.Node.Scope
import TransactLint.Node.Size
import TransactLint.Node.Walk
import TransactLint.ParseError
import TransactLint.Proofs.Aliases
import TransactLint.Proofs.Anchors
import TransactLint.Proofs.BatchComposition
import TransactLint.Proofs.Concatenation
import TransactLint.Proofs.Depth
import TransactLint.Proofs.Depth.Script
import TransactLint.Proofs.Enclosure
import TransactLint.Proofs.Excerpt
import TransactLint.Proofs.Excerpt.Closed
import TransactLint.Proofs.Excerpt.Definition
import TransactLint.Proofs.Excerpt.Expression
import TransactLint.Proofs.Excerpt.Parser
import TransactLint.Proofs.Excerpt.Query
import TransactLint.Proofs.Excerpt.Statement
import TransactLint.Proofs.Excerpt.TableDefinition
import TransactLint.Proofs.Extent
import TransactLint.Proofs.Flattening
import TransactLint.Proofs.Form
import TransactLint.Proofs.Form.Expression
import TransactLint.Proofs.Form.Query
import TransactLint.Proofs.Form.Skipped
import TransactLint.Proofs.Form.Statement
import TransactLint.Proofs.Gap
import TransactLint.Proofs.GuardKeys
import TransactLint.Proofs.InlineIndexes
import TransactLint.Proofs.JoinOperators
import TransactLint.Proofs.JsonRoundTrip
import TransactLint.Proofs.JsonScalars
import TransactLint.Proofs.Junction
import TransactLint.Proofs.Ladder
import TransactLint.Proofs.Layout
import TransactLint.Proofs.Layout.Definition
import TransactLint.Proofs.Layout.Expression
import TransactLint.Proofs.Layout.Name
import TransactLint.Proofs.Layout.Parser
import TransactLint.Proofs.Layout.Query
import TransactLint.Proofs.Layout.Script
import TransactLint.Proofs.Layout.Statement
import TransactLint.Proofs.Layout.TableDefinition
import TransactLint.Proofs.LedgerEntries
import TransactLint.Proofs.LineEnd
import TransactLint.Proofs.Nesting
import TransactLint.Proofs.OperatorRuns
import TransactLint.Proofs.OutermostChains
import TransactLint.Proofs.Parenthesization
import TransactLint.Proofs.Places
import TransactLint.Proofs.Precedence
import TransactLint.Proofs.Progress.Definition
import TransactLint.Proofs.Progress.Expression
import TransactLint.Proofs.Progress.Parser
import TransactLint.Proofs.Progress.Query
import TransactLint.Proofs.Progress.Statement
import TransactLint.Proofs.PropertyArguments
import TransactLint.Proofs.Reading
import TransactLint.Proofs.RecursiveWalk
import TransactLint.Proofs.Relocation.Agreement
import TransactLint.Proofs.Relocation.Definition
import TransactLint.Proofs.Relocation.Expression
import TransactLint.Proofs.Relocation.Feature
import TransactLint.Proofs.Relocation.Name
import TransactLint.Proofs.Relocation.Node
import TransactLint.Proofs.Relocation.Parser
import TransactLint.Proofs.Relocation.Query
import TransactLint.Proofs.Relocation.Rule
import TransactLint.Proofs.Relocation.Statement
import TransactLint.Proofs.Relocation.TableDefinition
import TransactLint.Proofs.Relocation.Tree
import TransactLint.Proofs.RoundTrip
import TransactLint.Proofs.RuleSelection
import TransactLint.Proofs.Scanning
import TransactLint.Proofs.ScopedWalk
import TransactLint.Proofs.Seeking
import TransactLint.Proofs.SeparatorLine
import TransactLint.Proofs.Skipping
import TransactLint.Proofs.Sorting
import TransactLint.Proofs.Spelling
import TransactLint.Proofs.StatementCover
import TransactLint.Proofs.TableKeys
import TransactLint.Proofs.TableLedger
import TransactLint.Proofs.TableRequirements
import TransactLint.Proofs.Termination
import TransactLint.Proofs.Tiling
import TransactLint.Proofs.TokenOrder
import TransactLint.Proofs.Traversal
import TransactLint.Proofs.TriviaNoninterference
import TransactLint.Proofs.Wording
import TransactLint.Proofs.Yields
import TransactLint.Rule
import TransactLint.Rule.Conversion
import TransactLint.Rule.Description
import TransactLint.Rule.OptionalWord
import TransactLint.Rule.TableRequirement
import TransactLint.Span
import TransactLint.StableSort
import TransactLint.TableKey
import TransactLint.TableLedger
import TransactLint.Text.Alphabetic
import TransactLint.Text.Basic
import TransactLint.Text.Cased
import TransactLint.Text.LowerCase
import TransactLint.Text.Numeric
import TransactLint.Text.UpperCase
import TransactLint.Token
import TransactLint.Tokenization
import TransactLint.Tree.Name
import TransactLint.Tree.Operator
import TransactLint.Tree.Query
import TransactLint.Tree.Statement
import TransactLint.Tree.TableDefinition
import TransactLint.Violation
import TransactLint.Violation.Json
