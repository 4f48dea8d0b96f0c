import Uplift.Catalog.Load
import Uplift.Catalog.React
import Uplift.Catalog.Rule
import Uplift.Cli.Args
import Uplift.Cli.Run
import Uplift.Config.Basic
import Uplift.Config.Files
import Uplift.Config.Layers
import Uplift.Config.Toml
import Uplift.Detect.Issue
import Uplift.Detect.Run
import Uplift.Detect.Scanner
import Uplift.Discover
import Uplift.Disk
import Uplift.Edit
import Uplift.Error
import Uplift.Fix.Apply
import Uplift.Fix.Basic
import Uplift.Fix.Generate
import Uplift.Glob.Basic
import Uplift.Glob.Reader
import Uplift.Ignore.Defaults
import Uplift.Ignore.File
import Uplift.Ignore.Rule
import Uplift.Json.Decode
import Uplift.Json.Printer
import Uplift.Json.Reader
import Uplift.Json.Value
import Uplift.Language
import Uplift.Lifecycle.Pattern
import Uplift.Lifecycle.Signals
import Uplift.Main
import Uplift.Path
import Uplift.Proofs.Detect.Findings
import Uplift.Proofs.Edit.Conflicts
import Uplift.Proofs.Edit.Frame
import Uplift.Proofs.Fix.Accounting
import Uplift.Proofs.Fix.Agreement
import Uplift.Proofs.Fix.Batch
import Uplift.Proofs.Fix.Collisions
import Uplift.Proofs.Fix.Fields
import Uplift.Proofs.Fix.Generated
import Uplift.Proofs.Fix.Groups
import Uplift.Proofs.Fix.Hooks
import Uplift.Proofs.Fix.Isolation
import Uplift.Proofs.Fix.Journal
import Uplift.Proofs.Fix.Moves
import Uplift.Proofs.Fix.Outcomes
import Uplift.Proofs.Fix.Pipeline
import Uplift.Proofs.Fix.Revision
import Uplift.Proofs.Fix.Run
import Uplift.Proofs.Fix.Survival
import Uplift.Proofs.Fix.Tally
import Uplift.Proofs.Revise.Removal
import Uplift.Proofs.Revise.StateEdit
import Uplift.Proofs.Snapshot.Spans
import Uplift.Proofs.State.Broken
import Uplift.Proofs.State.Colon
import Uplift.Proofs.State.Copying
import Uplift.Proofs.State.Ink
import Uplift.Proofs.State.Keys
import Uplift.Proofs.State.Layout
import Uplift.Proofs.State.Lexis
import Uplift.Proofs.State.Member
import Uplift.Proofs.State.Overlay
import Uplift.Proofs.State.Reading
import Uplift.Proofs.State.Reformat
import Uplift.Proofs.State.Remark
import Uplift.Proofs.State.RoundTrip
import Uplift.Proofs.Store.Apart
import Uplift.Proofs.Text.Places
import Uplift.Proofs.Text.Remains
import Uplift.Proofs.Text.Trim
import Uplift.Rename.Identifier
import Uplift.Rename.Mask
import Uplift.Rename.Method
import Uplift.Report.Console
import Uplift.Report.Json
import Uplift.Report.Summary
import Uplift.Revise.Constructor
import Uplift.Revise.Line
import Uplift.Script.Cursor
import Uplift.Script.Extract
import Uplift.Script.Grammar.Basic
import Uplift.Script.Grammar.Expressions
import Uplift.Script.Grammar.Statements
import Uplift.Script.Grammar.Types
import Uplift.Script.Lexical
import Uplift.Script.Parse
import Uplift.Script.Tree
import Uplift.Snapshot
import Uplift.Snapshot.Json
import Uplift.State.Extract
import Uplift.State.Literal
import Uplift.State.Props
import Uplift.State.Splitter
import Uplift.Store
import Uplift.Store.Disk
import Uplift.Store.Memory
import Uplift.Text.Basic
import Uplift.Text.Blank
import Uplift.Text.Lower
import Uplift.Text.Word
import Uplift.Toml.Printer
import Uplift.Toml.Reader
import Uplift.Toml.Scalar
import Uplift.Toml.Value
import Uplift.Proofs.Detect.Decomposition
import Uplift.Proofs.Config.Layering
import Uplift.Proofs.State.Evaluation
import Uplift.Proofs.State.Spread
import Uplift.Proofs.Toml.Quotes
import Uplift.Proofs.Toml.Values
import Uplift.Proofs.Config.RoundTrip
import Uplift.Proofs.Edit.Acceptance
import Uplift.Proofs.Edit.AnyOrder
import Uplift.Proofs.Revise.Initializer
import Uplift.Proofs.State.Whole
import Uplift.Proofs.Revise.Brace
import Uplift.Proofs.Rename.Reader
import Uplift.Proofs.Rename.Words
import Uplift.Proofs.Rename.Respelling
import Uplift.Proofs.Rename.Occurrences
import Uplift.Proofs.Rename.Parameters
import Uplift.Proofs.Fix.Names
import Uplift.Proofs.State.Grouping
import Uplift.Proofs.Fix.Queue
import Uplift.Proofs.Nesting.Tree
import Uplift.Proofs.State.Commas
import Uplift.Proofs.Rename.Structure
import Uplift.Proofs.State.Cuts
import Uplift.Proofs.State.Parts
import Uplift.Proofs.State.Templates
import Uplift.Proofs.Revise.Clearance
import Uplift.Proofs.Text.Lines
import Uplift.Proofs.Revise.Gaps
import Uplift.Proofs.Fix.Answered
import Uplift.Proofs.Catalog.Decoding
import Uplift.Proofs.Catalog.Loading
import Uplift.Proofs.Lifecycle.Expressions
import Uplift.Proofs.Fix.FirstSeen
import Uplift.Proofs.Fix.FileByFile
import Uplift.Proofs.Report.Totals
import Uplift.Proofs.Script.Preorder
import Uplift.Proofs.Script.Nested
import Uplift.Proofs.Script.Records
import Uplift.Proofs.Script.Extraction
