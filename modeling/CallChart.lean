import CallChart.CommandLine
import CallChart.CommandLine.Help
import CallChart.CommandLine.Options
import CallChart.CommandLine.Spec
import CallChart.Config
import CallChart.Diagram
import CallChart.Elixir.Gap
import CallChart.Elixir.Grammar.Block
import CallChart.Elixir.Grammar.Expression
import CallChart.Elixir.Grammar.Rules
import CallChart.Elixir.Letter
import CallChart.Elixir.Lexeme
import CallChart.Elixir.Node
import CallChart.Elixir.Operator
import CallChart.Elixir.Outline
import CallChart.Elixir.Quote
import CallChart.Elixir.Reader
import CallChart.Expr
import CallChart.Files.Disk
import CallChart.Files.Entry
import CallChart.Glob.Match
import CallChart.Glob.Pattern
import CallChart.Index
import CallChart.Json
import CallChart.Location.Ignore
import CallChart.Location.Locate
import CallChart.Location.Walk
import CallChart.Main
import CallChart.Outline
import CallChart.Path
import CallChart.Proofs.Basic
import CallChart.Proofs.CallGraph
import CallChart.Proofs.Keys
import CallChart.Source.Reading
import CallChart.Source.Texts
import CallChart.Table
import CallChart.Text.Quoted
import CallChart.Text.Unseen
import CallChart.Toml.Number
import CallChart.Toml.Reader
import CallChart.Toml.Text
import CallChart.Toml.Tree
import CallChart.Toml.Value
import CallChart.Toml.Writer
import CallChart.Trace
import CallChart.Workbench
import CallChart.Proofs.Expansion
import CallChart.Proofs.Steps
import CallChart.Proofs.Chains
import CallChart.Proofs.Reach
import CallChart.Proofs.Truncation
import CallChart.Proofs.ByteOrder
import CallChart.Proofs.Merging
import CallChart.Proofs.Footprint
import CallChart.Proofs.Elixir.Shape
import CallChart.Proofs.Elixir.Spelling
import CallChart.Proofs.Elixir.StaticCalls
import CallChart.Proofs.Elixir.Lowering
import CallChart.Proofs.Elixir.Grammar.Rules
import CallChart.Proofs.Elixir.Grammar.Block
import CallChart.Proofs.Elixir.Grammar.Expression
import CallChart.Proofs.Bodies
import CallChart.Proofs.Delegation
import CallChart.Proofs.Reordering
import CallChart.Proofs.Clauses
import CallChart.Proofs.Agreement
import CallChart.Proofs.Arguments
import CallChart.Proofs.Inlining
import CallChart.Proofs.Participants
import CallChart.Proofs.Files.Growth
import CallChart.Proofs.Files.Following
import CallChart.Proofs.Files.Writing
import CallChart.Proofs.Paths
import CallChart.Proofs.Files.NewFolders
import CallChart.Proofs.Commands
import CallChart.Proofs.Diagram.Lines
import CallChart.Proofs.Diagram.Text
import CallChart.Proofs.Json.Reading
import CallChart.Proofs.Json.RoundTrip
import CallChart.Proofs.Elixir.Modules
import CallChart.Proofs.Elixir.Heads
import CallChart.Proofs.Elixir.Interpolation
import CallChart.Proofs.PathOrder
import CallChart.Proofs.Location.Located
import CallChart.Proofs.Glob.Front
import CallChart.Proofs.Files.Walking
import CallChart.Proofs.TidyPaths
import CallChart.Proofs.Location.Patterns
import CallChart.Proofs.SamePaths
import CallChart.Proofs.KeptTexts
import CallChart.Proofs.Glob.Steps
import CallChart.Proofs.Glob.Slashes
import CallChart.Proofs.Glob.Escapes
import CallChart.Proofs.Location.Sources
import CallChart.Proofs.Location.Spellings
import CallChart.Proofs.Elixir.ModuleNames
import CallChart.Proofs.DefaultOutputs
import CallChart.Proofs.Toml.Texts
import CallChart.Proofs.Toml.Numbers
import CallChart.Proofs.Toml.Values
import CallChart.Proofs.Toml.Documents
import CallChart.Proofs.ConfigFiles
import CallChart.Proofs.Location.Sources
