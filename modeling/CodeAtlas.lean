import CodeAtlas.Analysis
import CodeAtlas.Call.Graph
import CodeAtlas.Call.Resolver
import CodeAtlas.Call.Site
import CodeAtlas.Command.Disk
import CodeAtlas.Command.Line
import CodeAtlas.Command.Options
import CodeAtlas.Command.Run
import CodeAtlas.Command.Table
import CodeAtlas.Command.Trees
import CodeAtlas.Complexity
import CodeAtlas.Declaration.Basic
import CodeAtlas.Declaration.Extract
import CodeAtlas.Declaration.Signature
import CodeAtlas.Dependency.Document
import CodeAtlas.Dependency.Drawing
import CodeAtlas.Dependency.Graph
import CodeAtlas.Dependency.Specifier
import CodeAtlas.Digraph.Basic
import CodeAtlas.Digraph.Components
import CodeAtlas.Digraph.Cycles
import CodeAtlas.Entity
import CodeAtlas.Error
import CodeAtlas.Issue.Basic
import CodeAtlas.Issue.Rules
import CodeAtlas.Json.Reader
import CodeAtlas.Json.Writer
import CodeAtlas.Language
import CodeAtlas.Main
import CodeAtlas.Number.Binary64
import CodeAtlas.Number.Decimal
import CodeAtlas.Number.Numeral
import CodeAtlas.Parsing
import CodeAtlas.Path
import CodeAtlas.Position
import CodeAtlas.Proofs.AliasedSpecifiers
import CodeAtlas.Proofs.CallPlaces
import CodeAtlas.Proofs.CallScans
import CodeAtlas.Proofs.CanonicalPaths
import CodeAtlas.Proofs.CircularDependencies
import CodeAtlas.Proofs.CodePartition
import CodeAtlas.Proofs.CodePoints
import CodeAtlas.Proofs.Components
import CodeAtlas.Proofs.Conservation
import CodeAtlas.Proofs.CycleOutcomes
import CodeAtlas.Proofs.Cycles
import CodeAtlas.Proofs.DecisionCounts
import CodeAtlas.Proofs.DotDocuments
import CodeAtlas.Proofs.ExternalTargets
import CodeAtlas.Proofs.Extraction
import CodeAtlas.Proofs.FileOrder
import CodeAtlas.Proofs.FilesOnCycles
import CodeAtlas.Proofs.FirstErrors
import CodeAtlas.Proofs.FocusedDrawings
import CodeAtlas.Proofs.Integrity
import CodeAtlas.Proofs.Isolation
import CodeAtlas.Proofs.JsonDocuments
import CodeAtlas.Proofs.LocalCalls
import CodeAtlas.Proofs.MethodCalls
import CodeAtlas.Proofs.Neighbours
import CodeAtlas.Proofs.NestedFunctions
import CodeAtlas.Proofs.NormalForms
import CodeAtlas.Proofs.Overrides
import CodeAtlas.Proofs.Passes
import CodeAtlas.Proofs.RelativeSpecifiers
import CodeAtlas.Proofs.ScopeForest
import CodeAtlas.Proofs.SearchModes
import CodeAtlas.Proofs.SearchRounds
import CodeAtlas.Proofs.SimpleNames
import CodeAtlas.Proofs.SimplePaths
import CodeAtlas.Proofs.StackWalks
import CodeAtlas.Proofs.Thresholds
import CodeAtlas.Proofs.Trees
import CodeAtlas.Reference
import CodeAtlas.Report
import CodeAtlas.Settings.Basic
import CodeAtlas.Settings.File
import CodeAtlas.Snapshot.Basic
import CodeAtlas.Snapshot.Query
import CodeAtlas.Snapshot.Summary
import CodeAtlas.Text.Alphanumeric
import CodeAtlas.Text.Blank
import CodeAtlas.Text.Case
import CodeAtlas.Text.Casing
import CodeAtlas.Text.Digit
import CodeAtlas.Text.Glob
import CodeAtlas.Text.Printable
import CodeAtlas.Text.Ranges
import CodeAtlas.Text.Segments
import CodeAtlas.Text.Styling
import CodeAtlas.Text.Utf8
import CodeAtlas.Toml.Entry
import CodeAtlas.Toml.Item
import CodeAtlas.Toml.Layout
import CodeAtlas.Toml.Quoted
import CodeAtlas.Toml.Reader
import CodeAtlas.Toml.Scalar
import CodeAtlas.Toml.Span
import CodeAtlas.Tree.Document
import CodeAtlas.Tree.Node
import CodeAtlas.Tree.Rows
import CodeAtlas.Tree.Source
import CodeAtlas.Value.Basic
import CodeAtlas.Value.Literal
import CodeAtlas.Value.Moment
import CodeAtlas.Warning
