import Curly.Config
import Curly.Data
import Curly.Decimal.Layout
import Curly.Decimal.Shortest
import Curly.Diagnostic
import Curly.Document
import Curly.Engine
import Curly.Entries
import Curly.Evaluation
import Curly.Excerpt
import Curly.Frame
import Curly.Helper
import Curly.Helper.Builtin
import Curly.Key
import Curly.Number
import Curly.Proofs.Around
import Curly.Proofs.Chains
import Curly.Proofs.Concat
import Curly.Proofs.Delivery
import Curly.Proofs.Documents
import Curly.Proofs.Dotted
import Curly.Proofs.Enumeration
import Curly.Proofs.Equality
import Curly.Proofs.Escaping
import Curly.Proofs.Faults
import Curly.Proofs.Grammar.Alike
import Curly.Proofs.Grammar.Expression
import Curly.Proofs.Grammar.Kinds
import Curly.Proofs.Grammar.Path
import Curly.Proofs.Grammar.Scope
import Curly.Proofs.Grammar.Stacks
import Curly.Proofs.Grammar.Tag
import Curly.Proofs.Inclusion
import Curly.Proofs.Integers
import Curly.Proofs.Iteration
import Curly.Proofs.Lift.Render
import Curly.Proofs.Lift.Tree
import Curly.Proofs.Limit
import Curly.Proofs.Logging
import Curly.Proofs.Lookup
import Curly.Proofs.Negation
import Curly.Proofs.Parts
import Curly.Proofs.Positions
import Curly.Proofs.Reach
import Curly.Proofs.Regions
import Curly.Proofs.Registry
import Curly.Proofs.Render.Compare
import Curly.Proofs.Render.Course
import Curly.Proofs.Render.Depth
import Curly.Proofs.Render.Effects
import Curly.Proofs.Render.InStep
import Curly.Proofs.Render.Markup
import Curly.Proofs.Render.Output
import Curly.Proofs.Render.Provenance
import Curly.Proofs.Render.Work
import Curly.Proofs.Scan.Blanks
import Curly.Proofs.Scan.Bodies
import Curly.Proofs.Scan.Comments
import Curly.Proofs.Scan.Coverage
import Curly.Proofs.Scan.Joints
import Curly.Proofs.Scan.Local
import Curly.Proofs.Scan.Markers
import Curly.Proofs.Scan.Passages
import Curly.Proofs.Scan.Steps
import Curly.Proofs.Scan.Strings
import Curly.Proofs.Scan.Tokens
import Curly.Proofs.Sections
import Curly.Proofs.Spacing
import Curly.Proofs.Supported
import Curly.Proofs.Unresolved
import Curly.Proofs.Verbatim
import Curly.Proofs.Written.Call
import Curly.Proofs.Written.Condition
import Curly.Proofs.Written.Literal
import Curly.Proofs.Written.Output
import Curly.Proofs.Written.Path
import Curly.Proofs.Written.Reads
import Curly.Proofs.Written.Segment
import Curly.Region
import Curly.Rendering
import Curly.Run
import Curly.Severity
import Curly.Sink
import Curly.Template
import Curly.Template.Expression
import Curly.Template.Lexeme
import Curly.Template.Outline
import Curly.Template.Path
import Curly.Template.SyntaxError
import Curly.Template.Tag
import Curly.Template.Token
import Curly.Template.Tree
import Curly.Text.Blank
import Curly.Text.Columns
import Curly.Text.Emoji
import Curly.Text.Entity
import Curly.Text.Identifier
import Curly.Text.Integer
import Curly.Text.Ranges
import Curly.Text.Width
import Curly.Value
