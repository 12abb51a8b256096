import TokenStream.Calendar
import TokenStream.CommandLine.Arguments
import TokenStream.CommandLine.Usage
import TokenStream.CommandLine.Word
import TokenStream.Decimal.Binary64
import TokenStream.Decimal.Layout
import TokenStream.Decimal.Shortest
import TokenStream.Diagnostic.Basic
import TokenStream.Diagnostic.Workspace
import TokenStream.Feed
import TokenStream.File.Path
import TokenStream.File.Tree
import TokenStream.Json
import TokenStream.Lexer.Cursor
import TokenStream.Lexer.Extent
import TokenStream.Lexer.Passage
import TokenStream.Lexer.Session
import TokenStream.Main
import TokenStream.Numeral
import TokenStream.Program.Run
import TokenStream.Program.Settings
import TokenStream.Report
import TokenStream.Source
import TokenStream.SystemError
import TokenStream.Text.Blank
import TokenStream.Text.CharClass
import TokenStream.Text.CodePoint
import TokenStream.Text.DecimalDigit
import TokenStream.Text.Hex
import TokenStream.Text.Intervals
import TokenStream.Text.Letter
import TokenStream.Text.Position
import TokenStream.Text.Printable
import TokenStream.Text.Quoted
import TokenStream.Text.Utf16
import TokenStream.Text.Utf8
import TokenStream.Token
import TokenStream.Toml.Document
import TokenStream.Toml.Fault
import TokenStream.Toml.Scalar
import TokenStream.Toml.Table
import TokenStream.Toml.Text
import TokenStream.Toml.Value
import TokenStream.Proofs.Alphabet
import TokenStream.Proofs.Lexeme
import TokenStream.Proofs.Cursor
import TokenStream.Proofs.Decomposition
import TokenStream.Proofs.DigitRuns
import TokenStream.Proofs.MaximalMunch
import TokenStream.Proofs.Tiling
import TokenStream.Proofs.NumeralData
import TokenStream.Proofs.Reference
import TokenStream.Proofs.Interleaving
import TokenStream.Proofs.Concatenation
import TokenStream.Proofs.Respacing
import TokenStream.Proofs.Position
import TokenStream.Proofs.Offsets
import TokenStream.Proofs.Documents
import TokenStream.Proofs.Diagnostics
import TokenStream.Proofs.Passages
import TokenStream.Proofs.RemainingText
import TokenStream.Proofs.Refusals
import TokenStream.Proofs.Utf8
import TokenStream.Proofs.JsonReader
import TokenStream.Proofs.JsonDump
import TokenStream.Proofs.IntegerLiterals
import TokenStream.Proofs.Except
import TokenStream.Proofs.Feeds
import TokenStream.Proofs.FileTree
import TokenStream.Proofs.CommandLine
import TokenStream.Proofs.Settings
import TokenStream.Proofs.Run
import TokenStream.Proofs.Endings
import TokenStream.Proofs.Answers
import TokenStream.Proofs.Lines
import TokenStream.Proofs.QuotedReader
import TokenStream.Proofs.TextDump
import TokenStream.Proofs.IllegalReports
import TokenStream.Proofs.Modes
import TokenStream.Proofs.Sessions
import TokenStream.Proofs.Progress
import TokenStream.Proofs.TraceDump
import TokenStream.Proofs.OptionGroups
import TokenStream.Proofs.OptionMerging
