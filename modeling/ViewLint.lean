import ViewLint.CommandLine.Arguments
import ViewLint.CommandLine.Help
import ViewLint.CommandLine.Run
import ViewLint.Config.Basic
import ViewLint.Config.File
import ViewLint.Files.Display
import ViewLint.Files.Exclusion
import ViewLint.Files.Glob
import ViewLint.Files.Ignore
import ViewLint.Files.Path
import ViewLint.Files.Search
import ViewLint.Files.System
import ViewLint.Finding.Basic
import ViewLint.Finding.Detect
import ViewLint.Finding.Json
import ViewLint.Fix.All
import ViewLint.Fix.Basic
import ViewLint.Fix.Error
import ViewLint.Fix.Payload
import ViewLint.Grammar.Concrete
import ViewLint.Grammar.Declaration
import ViewLint.Grammar.Expression
import ViewLint.Grammar.Lexer
import ViewLint.Grammar.Pattern
import ViewLint.Grammar.Reader
import ViewLint.Grammar.Source
import ViewLint.Grammar.Statement
import ViewLint.Grammar.Token
import ViewLint.Grammar.Type
import ViewLint.Json.Decode
import ViewLint.Json.Number
import ViewLint.Json.Text
import ViewLint.Json.Value
import ViewLint.Main
import ViewLint.Model.BaseLibrary
import ViewLint.Model.Basic
import ViewLint.Model.File
import ViewLint.Model.Symbol
import ViewLint.Number.Binary64
import ViewLint.Number.Shortest
import ViewLint.Pieces
import ViewLint.Project.Linter
import ViewLint.Project.Result
import ViewLint.Proofs.Files.Order
import ViewLint.Proofs.Files.Write
import ViewLint.Proofs.Finding.Detect
import ViewLint.Proofs.Finding.Json
import ViewLint.Proofs.Finding.Order
import ViewLint.Proofs.Fix.Agreement
import ViewLint.Proofs.Fix.Backwards
import ViewLint.Proofs.Fix.Call
import ViewLint.Proofs.Fix.Consistency
import ViewLint.Proofs.Fix.Exhaustive
import ViewLint.Proofs.Fix.Grammatical
import ViewLint.Proofs.Fix.Hidden
import ViewLint.Proofs.Fix.Payload
import ViewLint.Proofs.Fix.Progress
import ViewLint.Proofs.Fix.Shift
import ViewLint.Proofs.Fix.Splice
import ViewLint.Proofs.Fix.Survival
import ViewLint.Proofs.Fix.Tracking
import ViewLint.Proofs.Grammar.Lexeme
import ViewLint.Proofs.Grammar.Lossless
import ViewLint.Proofs.Grammar.Parse
import ViewLint.Proofs.Grammar.Reader
import ViewLint.Proofs.Grammar.Rule
import ViewLint.Proofs.Json.Decode
import ViewLint.Proofs.Json.Scalar
import ViewLint.Proofs.Json.Value
import ViewLint.Proofs.Model.Additions
import ViewLint.Proofs.Model.Interfaces
import ViewLint.Proofs.Model.Search
import ViewLint.Proofs.Project.Check
import ViewLint.Proofs.Project.Fix
import ViewLint.Proofs.Rule.Bare
import ViewLint.Proofs.Rule.Comment
import ViewLint.Proofs.Rule.Parameters
import ViewLint.Proofs.Rule.Spacing
import ViewLint.Proofs.Rule.Specification
import ViewLint.Proofs.Text.Position
import ViewLint.Proofs.Text.Slice
import ViewLint.Proofs.Tree.Address
import ViewLint.Proofs.Tree.Bare
import ViewLint.Proofs.Tree.Find
import ViewLint.Proofs.Tree.Layout
import ViewLint.Proofs.Tree.Order
import ViewLint.Proofs.Tree.Outermost
import ViewLint.Proofs.Tree.Surroundings
import ViewLint.Proofs.Tree.Traversal
import ViewLint.Proofs.Tree.Wrapper
import ViewLint.QualifiedName
import ViewLint.Report.Table
import ViewLint.Report.Text
import ViewLint.Rule.Detector
import ViewLint.Rule.Lambda
import ViewLint.Rule.Settings
import ViewLint.Rule.View
import ViewLint.Source.Generated
import ViewLint.Source.Lint
import ViewLint.Text.Blank
import ViewLint.Text.CaseFold
import ViewLint.Text.Cut
import ViewLint.Text.Identifier
import ViewLint.Text.Position
import ViewLint.Text.Quoted
import ViewLint.Text.Width
import ViewLint.Toml.Document
import ViewLint.Toml.Text
import ViewLint.Toml.Value
import ViewLint.Tree.Basic
import ViewLint.Tree.Find
import ViewLint.Tree.Layout
import ViewLint.Tree.Span
import ViewLint.Proofs.Finding.Parallel
import ViewLint.Proofs.Finding.Separation
import ViewLint.Proofs.QualifiedName.Generics
import ViewLint.Proofs.QualifiedName.Parse
import ViewLint.Proofs.Files.Components
import ViewLint.Proofs.Source.Generated
import ViewLint.Proofs.Files.Place
import ViewLint.Proofs.Config.Enclosing
import ViewLint.Proofs.Files.Discovery
import ViewLint.Proofs.Files.Spelling
import ViewLint.Proofs.Project.Once
import ViewLint.Proofs.QualifiedName.FirstGroup
import ViewLint.Proofs.Model.DefaultName
