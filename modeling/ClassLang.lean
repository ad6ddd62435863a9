import ClassLang.Text.Base64
import ClassLang.Text.Blank
import ClassLang.Text.CodeTable
import ClassLang.Text.Decimal
import ClassLang.Text.Digit
import ClassLang.Text.Layout
import ClassLang.Text.Letter
import ClassLang.Text.Lowercase
import ClassLang.Text.Printable
import ClassLang.Text.Quoted
import ClassLang.Text.Utf8
import ClassLang.Token.Basic
import ClassLang.Token.Cursor
import ClassLang.Token.Kind
import ClassLang.Token.Lexeme
import ClassLang.Token.Span
import ClassLang.SourceError
import ClassLang.Syntax.Basic
import ClassLang.Syntax.Listing
import ClassLang.Syntax.Outline
import ClassLang.Syntax.Source
import ClassLang.Parser.Basic
import ClassLang.Parser.Expression
import ClassLang.Parser.Indexed
import ClassLang.Parser.Program
import ClassLang.Parser.Progress
import ClassLang.Parser.Statement
import ClassLang.Script.Program
import ClassLang.Script.Statement
import ClassLang.Files.Path
import ClassLang.Files.Tree
import ClassLang.Files.Workspace
import ClassLang.Yaml.Block
import ClassLang.Yaml.Character
import ClassLang.Yaml.Cursor
import ClassLang.Yaml.Document
import ClassLang.Yaml.Encoding
import ClassLang.Yaml.Fault
import ClassLang.Yaml.Gap
import ClassLang.Yaml.Node
import ClassLang.Yaml.Plain
import ClassLang.Yaml.Printer
import ClassLang.Yaml.Property
import ClassLang.Yaml.Quoted
import ClassLang.Yaml.Scalar
import ClassLang.Yaml.Token
import ClassLang.Yaml.Tokenizer
import ClassLang.Yaml.View
import ClassLang.Manifest.Basic
import ClassLang.Manifest.Document
import ClassLang.Manifest.Store
import ClassLang.Manifest.Version
import ClassLang.Build.Error
import ClassLang.Build.Output
import ClassLang.Build.Sources
import ClassLang.Build.Step
import ClassLang.Build.Tasks
import ClassLang.Build.Unit
import ClassLang.Command.Basic
import ClassLang.Command.Flags
import ClassLang.Command.Run
import ClassLang.Adt.Basic
import ClassLang.Adt.Emitted
import ClassLang.Adt.Parser
import ClassLang.Adt.Symbol
import ClassLang.Main
import ClassLang.Proofs.Grammar
import ClassLang.Proofs.Scanning
import ClassLang.Proofs.Outcome
import ClassLang.Proofs.Completeness.Expression
import ClassLang.Proofs.Completeness.Program
import ClassLang.Proofs.Soundness.Program
import ClassLang.Proofs.Threading
import ClassLang.Proofs.Recognition
import ClassLang.Proofs.RoundTrip
import ClassLang.Proofs.ScriptReading
import ClassLang.Proofs.LongestMatch
import ClassLang.Proofs.Tiling
import ClassLang.Proofs.Spacing
import ClassLang.Proofs.Legibility
import ClassLang.Proofs.CallSequences
import ClassLang.Proofs.Locality.Reader
import ClassLang.Proofs.Locality.Expression
import ClassLang.Proofs.Locality.Statement
import ClassLang.Proofs.Locality.Program
import ClassLang.Proofs.Viability.Expectation
import ClassLang.Proofs.Viability.Expression
import ClassLang.Proofs.Viability.Statement
import ClassLang.Proofs.Viability.Program
import ClassLang.Proofs.SyntaxErrors
import ClassLang.Proofs.Concatenation
import ClassLang.Proofs.Holes
import ClassLang.Proofs.Advancing
import ClassLang.Proofs.Independence
import ClassLang.Proofs.Lines
import ClassLang.Proofs.Nesting
import ClassLang.Proofs.Targets
import ClassLang.Proofs.Interfaces
import ClassLang.Proofs.BaseCalls
import ClassLang.Proofs.Layout
import ClassLang.Proofs.Indentation
import ClassLang.Proofs.Linking
import ClassLang.Proofs.Places
import ClassLang.Proofs.Steps
import ClassLang.Proofs.Schedules
import ClassLang.Proofs.Receivers
import ClassLang.Proofs.IntegerLiterals
import ClassLang.Proofs.ByteOrder
import ClassLang.Proofs.Runs
import ClassLang.Proofs.Rebuilding
import ClassLang.Proofs.DirectoryPaths
import ClassLang.Proofs.SourceOrder
import ClassLang.Proofs.Extensions
import ClassLang.Proofs.Headers
import ClassLang.Proofs.WrittenScalars
import ClassLang.Proofs.WrittenEntries
import ClassLang.Proofs.WrittenManifests
import ClassLang.Proofs.DeclarationOrder
