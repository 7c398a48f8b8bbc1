import Stencil.Text.Basic
import Stencil.Marker
import Stencil.Key
import Stencil.Text.Position
import Stencil.Placeholder.Basic
import Stencil.Placeholder.Tightening
import Stencil.Number.Integer
import Stencil.Expression.Basic
import Stencil.Expression.Parser
import Stencil.Program.Basic
import Stencil.Number.Rounding
import Stencil.Number.Binary64
import Stencil.Number.Decimal
import Stencil.Number.Notation
import Stencil.Json.Basic
import Stencil.Json.Token
import Stencil.Json.Reader
import Stencil.Json.Writer
import Stencil.Value.Basic
import Stencil.Value.Document
import Stencil.Bindings
import Stencil.Scope
import Stencil.Text.Blank
import Stencil.Warning
import Stencil.Program.Staging
import Stencil.OutputFunction
import Stencil.Value.Access
import Stencil.Program.Evaluation
import Stencil.Block
import Stencil.Config.Basic
import Stencil.FileSystem.Access
import Stencil.Text.Combining
import Stencil.Text.Invisible
import Stencil.Text.Quoted
import Stencil.Config.Reader
import Stencil.FileSystem.Basic
import Stencil.Scratch
import Stencil.Template.Basic
import Stencil.Template.Compile
import Stencil.Command.Arguments
import Stencil.Command.Outcome
import Stencil.Command.Compile
import Stencil.Text.Emoji
import Stencil.Text.CharWidth
import Stencil.Text.Ligature
import Stencil.Text.Width
import Stencil.Command.Table
import Stencil.Command.Check
import Stencil.Command.Run
import Stencil.Main
import Stencil.Proofs.Warning
import Stencil.Proofs.Placeholder.Pieces
import Stencil.Proofs.Placeholder.Strip
import Stencil.Proofs.Number.Integer
import Stencil.Proofs.Expression.Grammar
import Stencil.Proofs.Expression.RoundTrip
import Stencil.Proofs.Expression.Line
import Stencil.Proofs.FileSystem.Interleaving
import Stencil.Proofs.FileSystem.Laws
import Stencil.Proofs.FileSystem.Naming
import Stencil.Proofs.FileSystem.Scratch
import Stencil.Proofs.FileSystem.Task
import Stencil.Proofs.Program.Decomposition
import Stencil.Proofs.Program.Scope
import Stencil.Proofs.Program.Staging
import Stencil.Proofs.Template.Compile
import Stencil.Proofs.Template.Warnings
import Stencil.Proofs.Template.Scratch
import Stencil.Proofs.Template.History
import Stencil.Proofs.Template.Operations
import Stencil.Proofs.Template.Injects
import Stencil.Proofs.Block.Tag
import Stencil.Proofs.Block.Part
import Stencil.Proofs.Block.Conditions
import Stencil.Proofs.Block.Loops
import Stencil.Proofs.Block.Tight
import Stencil.Proofs.Text.Sanitize
import Stencil.Proofs.Text.Deletion
import Stencil.Proofs.Text.Occurrence
import Stencil.Proofs.Text.Strewn
import Stencil.Proofs.Text.Filling
import Stencil.Proofs.Template.Parts
import Stencil.Proofs.Expression.Simple
import Stencil.Proofs.Template.Flat
import Stencil.Proofs.Template.FlatCompile
import Stencil.Proofs.Placeholder.Matching
import Stencil.Proofs.Block.Sweep
import Stencil.Proofs.Block.Fragments
import Stencil.Proofs.Block.Seams
import Stencil.Proofs.Block.Nesting
import Stencil.Proofs.Block.Rows
import Stencil.Proofs.Template.Strict
import Stencil.Proofs.Template.Static
import Stencil.Proofs.Template.Kept
import Stencil.Proofs.Template.Markers
import Stencil.Proofs.Placeholder.Thinned
import Stencil.Proofs.Expression.Thinning
import Stencil.Proofs.Placeholder.Substitution
import Stencil.Proofs.Command.Check
import Stencil.Proofs.Placeholder.Padding
import Stencil.Proofs.Program.Calls
import Stencil.Proofs.Placeholder.Looseness
import Stencil.Proofs.Program.Escaping
import Stencil.Proofs.Template.Functions
import Stencil.Proofs.Template.Loading
import Stencil.Proofs.Template.Phase
import Stencil.Proofs.Value.Access
import Stencil.Proofs.Expression.Failure
import Stencil.Proofs.Program.Meaning
import Stencil.Proofs.Json.Token
import Stencil.Proofs.Json.RoundTrip
import Stencil.Proofs.Value.Document
import Stencil.Proofs.Text.Placed
import Stencil.Proofs.Text.Case
import Stencil.Proofs.Text.Spans
import Stencil.Proofs.Block.Spans
