import GraphQuery.Text.Quoted
import GraphQuery.Text.Character
import GraphQuery.Text.Identifier
import GraphQuery.Text.Displayed
import GraphQuery.Decimal.Layout
import GraphQuery.Json
import GraphQuery.Json.Printer
import GraphQuery.Json.Parser
import GraphQuery.Error
import GraphQuery.Operator
import GraphQuery.Literal
import GraphQuery.Parameter
import GraphQuery.Parameter.Names
import GraphQuery.Parameter.Table
import GraphQuery.Expression
import GraphQuery.Function
import GraphQuery.ClauseList
import GraphQuery.Builder
import GraphQuery.Config
import GraphQuery.Toml.Settings
import GraphQuery.Outline
import GraphQuery.Parameter.Occurrence
import GraphQuery.Render.Printer
import GraphQuery.Proofs.Builder.WellFormed
import GraphQuery.Proofs.Builder.Run
import GraphQuery.Proofs.Builder.Statement
import GraphQuery.Proofs.Render.Expression
import GraphQuery.Proofs.Render.Clause
import GraphQuery.Proofs.Render.Names
import GraphQuery.Proofs.Text.Characters
import GraphQuery.Proofs.Text.Ends
import GraphQuery.Proofs.Parameter.Names
import GraphQuery.Proofs.Parameter.Table
import GraphQuery.Proofs.Render.Ends
import GraphQuery.Proofs.Render.Statement
import GraphQuery.Proofs.Render.Chunks
import GraphQuery.Proofs.Render.Parameters
import GraphQuery.Proofs.Render.Quoting
import GraphQuery.Proofs.Builder.Interleaving
import GraphQuery.Proofs.Builder.Calls
import GraphQuery.Proofs.Builder.Build
import GraphQuery.Proofs.Render.Union
import GraphQuery.Proofs.Reading.Lexemes
import GraphQuery.Proofs.Reading.Reader
import GraphQuery.Proofs.Reading.Groups
import GraphQuery.Proofs.Reading.Expression
import GraphQuery.Proofs.Reading.Condition
import GraphQuery.Proofs.Reading.Precedence
import GraphQuery.Proofs.Traversal.Trace
import GraphQuery.Proofs.Render.Records
import GraphQuery.Proofs.Parameter.Replacement
import GraphQuery.Proofs.Parameter.Correspondence
import GraphQuery.Proofs.Render.Independence
import GraphQuery.Proofs.Reading.PatternReader
import GraphQuery.Proofs.Reading.Pattern
import GraphQuery.Proofs.Condition.NormalForm
import GraphQuery.Proofs.Condition.Evaluation
import GraphQuery.Proofs.Builder.Filters
import GraphQuery.Proofs.Parameter.Values
import GraphQuery.Proofs.Parameter.Conflicts
import GraphQuery.Proofs.Render.Collection
import GraphQuery.Proofs.Decimal.Reading
import GraphQuery.Proofs.Decimal.Shortest
import GraphQuery.Proofs.Literal.Numbers
import GraphQuery.Proofs.Literal.Text
import GraphQuery.Proofs.Literal.Conversion
import GraphQuery.Proofs.Pattern.Modifiers
import GraphQuery.Proofs.Builder.Patterns
import GraphQuery.Proofs.Pattern.Chains
import GraphQuery.Proofs.Builder.Unions
import GraphQuery.Proofs.Expression.Maps
import GraphQuery.Proofs.Traversal.Moves
import GraphQuery.Proofs.Toml.Strings
import GraphQuery.Proofs.Toml.Values
import GraphQuery.Proofs.Toml.Documents
import GraphQuery.Proofs.Configuration
import GraphQuery.Proofs.Text.Quoted
import GraphQuery.Proofs.Parameter.Generation
import GraphQuery.Proofs.Render.Lists
