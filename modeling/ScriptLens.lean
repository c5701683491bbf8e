import ScriptLens.CommandLine.Arguments
import ScriptLens.CommandLine.Output
import ScriptLens.CommandLine.Run
import ScriptLens.Json.Reader
import ScriptLens.Json.Record
import ScriptLens.Json.Value
import ScriptLens.Json.Writer
import ScriptLens.Main
import ScriptLens.Parser.Basic
import ScriptLens.Parser.Expressions
import ScriptLens.Parser.SourceFile
import ScriptLens.Parser.Statements
import ScriptLens.Parser.Types
import ScriptLens.Project.Config
import ScriptLens.Project.Disk
import ScriptLens.Project.FileSystem
import ScriptLens.Project.Loader
import ScriptLens.Project.LogFormat
import ScriptLens.Project.Memory
import ScriptLens.Project.Path
import ScriptLens.Project.Remote
import ScriptLens.Project.Resolver
import ScriptLens.Project.SearchPath
import ScriptLens.Project.Sources
import ScriptLens.Proofs.Acceptance
import ScriptLens.Proofs.ArgumentLists
import ScriptLens.Proofs.Assignability
import ScriptLens.Proofs.BlankedComments
import ScriptLens.Proofs.BreadthFirst
import ScriptLens.Proofs.CarefulSteps
import ScriptLens.Proofs.CaseFolding
import ScriptLens.Proofs.CommentTexts
import ScriptLens.Proofs.Comments
import ScriptLens.Proofs.CompletedNodes
import ScriptLens.Proofs.Coverage
import ScriptLens.Proofs.DeclarationLayout
import ScriptLens.Proofs.DeclaredTypes
import ScriptLens.Proofs.Elements
import ScriptLens.Proofs.ExpressionRuns
import ScriptLens.Proofs.FileCache
import ScriptLens.Proofs.FilledTemplates
import ScriptLens.Proofs.Grammar
import ScriptLens.Proofs.IncludePaths
import ScriptLens.Proofs.Integers
import ScriptLens.Proofs.Layout
import ScriptLens.Proofs.LayoutRuns
import ScriptLens.Proofs.Lexemes
import ScriptLens.Proofs.Lines
import ScriptLens.Proofs.Lookahead
import ScriptLens.Proofs.Lowering
import ScriptLens.Proofs.Nesting
import ScriptLens.Proofs.NodeLines
import ScriptLens.Proofs.Numbering
import ScriptLens.Proofs.OpenBlocks
import ScriptLens.Proofs.Operands
import ScriptLens.Proofs.OperatorNesting
import ScriptLens.Proofs.Operators
import ScriptLens.Proofs.ParameterSpelling
import ScriptLens.Proofs.Problems
import ScriptLens.Proofs.Progress
import ScriptLens.Proofs.QuotedLiterals
import ScriptLens.Proofs.ReportedLines
import ScriptLens.Proofs.Rescan
import ScriptLens.Proofs.ResolverCalls
import ScriptLens.Proofs.Runs
import ScriptLens.Proofs.ScopeBuilding
import ScriptLens.Proofs.ScopeEntries
import ScriptLens.Proofs.ScopeEvents
import ScriptLens.Proofs.ScopeNesting
import ScriptLens.Proofs.ScopeOwners
import ScriptLens.Proofs.ScopeWalk
import ScriptLens.Proofs.SettledText
import ScriptLens.Proofs.Silence
import ScriptLens.Proofs.Sites
import ScriptLens.Proofs.Slots
import ScriptLens.Proofs.SourceRuns
import ScriptLens.Proofs.Spans
import ScriptLens.Proofs.StatementLayout
import ScriptLens.Proofs.StatementRuns
import ScriptLens.Proofs.StrayCharacters
import ScriptLens.Proofs.TextLines
import ScriptLens.Proofs.TokenLayout
import ScriptLens.Proofs.TokenOrder
import ScriptLens.Proofs.TokenStream
import ScriptLens.Proofs.Trace
import ScriptLens.Proofs.TreeWalks
import ScriptLens.Proofs.TypeRoundTrip
import ScriptLens.Proofs.TypeRuns
import ScriptLens.Proofs.TypeSlots
import ScriptLens.Proofs.TypeSpelling
import ScriptLens.Proofs.TypeText
import ScriptLens.Proofs.TypedDeclarations
import ScriptLens.Proofs.Visibility
import ScriptLens.Proofs.WordBorders
import ScriptLens.Scope.Build
import ScriptLens.Scope.Definition
import ScriptLens.Scope.Tree
import ScriptLens.Service.Analysis
import ScriptLens.Service.Completion
import ScriptLens.Service.Cursor
import ScriptLens.Service.Diagnostic
import ScriptLens.Service.Highlight
import ScriptLens.Service.Report
import ScriptLens.Service.Suggestion
import ScriptLens.Text.Alphanumeric
import ScriptLens.Text.Blank
import ScriptLens.Text.Bytes
import ScriptLens.Text.CharRange
import ScriptLens.Text.LineMap
import ScriptLens.Text.LowerCase
import ScriptLens.Text.Printable
import ScriptLens.Text.Quoted
import ScriptLens.Text.Span
import ScriptLens.Text.Template
import ScriptLens.Token.Basic
import ScriptLens.Token.Integer
import ScriptLens.Token.Kind
import ScriptLens.Token.Listing
import ScriptLens.Token.Quoted
import ScriptLens.Token.Reading
import ScriptLens.Token.Scanner
import ScriptLens.Tree.Listing
import ScriptLens.Tree.Node
import ScriptLens.Tree.Payload
import ScriptLens.Types.Assignable
import ScriptLens.Types.Lower
import ScriptLens.Types.Shape
import ScriptLens.Types.Spelling
