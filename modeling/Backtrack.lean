import Backtrack.CodePoint.Folding
import Backtrack.CodePoint.Range
import Backtrack.CodePoint.Set
import Backtrack.Command.Arguments
import Backtrack.Command.Batch
import Backtrack.Command.Options
import Backtrack.Command.PatternFile
import Backtrack.Command.Program
import Backtrack.Derivation.Capture
import Backtrack.Derivation.Event
import Backtrack.Derivation.Resolver
import Backtrack.Derivation.Stream
import Backtrack.Log
import Backtrack.Main
import Backtrack.Outline.Basic
import Backtrack.Outline.Block
import Backtrack.Outline.Cursor
import Backtrack.Outline.Plain
import Backtrack.Outline.Property
import Backtrack.Outline.Quoted
import Backtrack.Outline.Readable
import Backtrack.Outline.Reader
import Backtrack.Outline.Scalar
import Backtrack.Outline.Token
import Backtrack.Outline.Tokens
import Backtrack.Pattern.Compile
import Backtrack.Pattern.Downgrade
import Backtrack.Pattern.Flags
import Backtrack.Pattern.Index
import Backtrack.Pattern.Lexer
import Backtrack.Pattern.Node
import Backtrack.Pattern.Parser
import Backtrack.Pattern.Printer
import Backtrack.Pattern.SyntaxError
import Backtrack.Pattern.Token
import Backtrack.Report.Basic
import Backtrack.Report.Highlight
import Backtrack.Report.Machine
import Backtrack.Report.Score
import Backtrack.Report.Text
import Backtrack.Requirement
import Backtrack.Search.Atomics
import Backtrack.Search.Check
import Backtrack.Search.Checker
import Backtrack.Search.History
import Backtrack.Search.Memo
import Backtrack.Search.Side
import Backtrack.Search.Status
import Backtrack.Settings.Basic
import Backtrack.Settings.File
import Backtrack.Settings.Level
import Backtrack.Text.Ascii
import Backtrack.Text.Base64
import Backtrack.Text.Decimal
import Backtrack.Text.Document
import Backtrack.Text.Duration
import Backtrack.Text.Integer
import Backtrack.Text.Quoted
import Backtrack.Text.Utf8
import Backtrack.Unicode.BinaryProperties
import Backtrack.Unicode.CaseFolding
import Backtrack.Unicode.Letters
import Backtrack.Unicode.Printable
import Backtrack.Unicode.Property
import Backtrack.Unicode.Scripts
import Backtrack.Unicode.Signs
import Backtrack.Unicode.Table
import Backtrack.Proofs.CodePoint.Members
import Backtrack.Proofs.Unicode.Tables
import Backtrack.Proofs.Requirements
import Backtrack.Proofs.Algebra
import Backtrack.Proofs.CodePoint.Combinations
import Backtrack.Proofs.Pattern.Bounds
import Backtrack.Proofs.Pattern.Lexemes
import Backtrack.Proofs.Pattern.Tokens
import Backtrack.Proofs.Pattern.Trees
import Backtrack.Proofs.Classes
import Backtrack.Proofs.Pattern.Extents
import Backtrack.Proofs.Pattern.Scanning
import Backtrack.Proofs.Pattern.Tiling
import Backtrack.Proofs.Derivation.Unfolding
import Backtrack.Proofs.Pattern.Children
import Backtrack.Proofs.Derivation.Origin
import Backtrack.Proofs.Search.Steps
import Backtrack.Proofs.Search.Soundness
import Backtrack.Proofs.Search.Admissible
import Backtrack.Proofs.Search.Exhaustive
import Backtrack.Proofs.Emptiness
import Backtrack.Proofs.Search.Shared
import Backtrack.Proofs.Derivation.Transparent
import Backtrack.Proofs.Search.Limits
import Backtrack.Proofs.Derivation.Traversal
import Backtrack.Proofs.Derivation.Words
import Backtrack.Proofs.Derivation.Recall
import Backtrack.Proofs.Derivation.Memory
import Backtrack.Proofs.Derivation.Replays
import Backtrack.Proofs.Derivation.Retraces
import Backtrack.Proofs.Derivation.Verbatim
import Backtrack.Proofs.Text.Readback
import Backtrack.Proofs.Pattern.Escapes
import Backtrack.Proofs.Pattern.Legible
import Backtrack.Proofs.Pattern.Sources
import Backtrack.Proofs.Pattern.CopyTable
import Backtrack.Proofs.Pattern.Copying
import Backtrack.Proofs.Pattern.Counting
import Backtrack.Proofs.Pattern.Layout
import Backtrack.Proofs.Pattern.Building
import Backtrack.Proofs.Pattern.Spelling
import Backtrack.Proofs.Pattern.Making
import Backtrack.Proofs.Pattern.Braces
import Backtrack.Proofs.Pattern.Places
import Backtrack.Proofs.Pattern.Revised
import Backtrack.Proofs.Pattern.Suited
import Backtrack.Proofs.Pattern.Numbering
import Backtrack.Proofs.Pattern.Ancestors
import Backtrack.Proofs.Pattern.RoundTrip
import Backtrack.Proofs.Pattern.Downgrading
import Backtrack.Proofs.Pattern.References
import Backtrack.Proofs.Pattern.Targets
import Backtrack.Proofs.Language.Readings
import Backtrack.Proofs.Language.Lookups
import Backtrack.Proofs.Language.Widening
import Backtrack.Proofs.Language.Nullable
import Backtrack.Proofs.Pattern.Walks
import Backtrack.Proofs.Derivation.Followable
import Backtrack.Proofs.Pattern.Followed
import Backtrack.Proofs.Search.Supported
import Backtrack.Proofs.Search.Pruning
import Backtrack.Proofs.Derivation.Framing
import Backtrack.Proofs.Derivation.Progress
import Backtrack.Proofs.Derivation.Bounded
import Backtrack.Proofs.Derivation.Idling
import Backtrack.Proofs.Derivation.Ending
import Backtrack.Proofs.Pattern.Visiting
import Backtrack.Proofs.Pattern.Spans
import Backtrack.Proofs.Derivation.Rooted
import Backtrack.Proofs.Search.Tracking
import Backtrack.Proofs.Search.Sides
import Backtrack.Proofs.Search.Identities
import Backtrack.Proofs.Search.Answers
import Backtrack.Proofs.Search.Squares
import Backtrack.Proofs.Search.Mirrors
import Backtrack.Proofs.Search.Guarded
import Backtrack.Proofs.Search.Safety
import Backtrack.Proofs.Text.Unambiguous
import Backtrack.Proofs.Report.Deduplication
import Backtrack.Proofs.CodePoint.Folding
import Backtrack.Proofs.Report.Families
import Backtrack.Proofs.Pattern.Openings
import Backtrack.Proofs.Pattern.Expansions
import Backtrack.Proofs.Report.Downgraded
import Backtrack.Proofs.Pattern.Descent
import Backtrack.Proofs.Pattern.Offsets
import Backtrack.Proofs.Pattern.Faults
import Backtrack.Proofs.Pattern.Atoms
import Backtrack.Proofs.Pattern.Advancing
import Backtrack.Proofs.Pattern.Following
import Backtrack.Proofs.Pattern.Agreement
import Backtrack.Proofs.Report.Highlighting
