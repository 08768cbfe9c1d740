import CallGraph.Abi
import CallGraph.Command.Basic
import CallGraph.Command.Dump
import CallGraph.Command.Lookup
import CallGraph.Command.Normalize
import CallGraph.Command.Session
import CallGraph.CommandLine.Invocation
import CallGraph.CommandLine.Options
import CallGraph.CommandLine.Suggestion
import CallGraph.Config.Basic
import CallGraph.Demangler.Batch
import CallGraph.Demangler.Reply
import CallGraph.Demangler.Tool
import CallGraph.Document.Basic
import CallGraph.Document.Lookup
import CallGraph.Document.Render
import CallGraph.Engine
import CallGraph.Fault
import CallGraph.FileSystem.Basic
import CallGraph.FileSystem.Loading
import CallGraph.FileSystem.Path
import CallGraph.Filter
import CallGraph.Graph.Basic
import CallGraph.Graph.Build
import CallGraph.Json.Basic
import CallGraph.Json.Display
import CallGraph.Json.Flaw
import CallGraph.Json.Parser
import CallGraph.Json.Printer
import CallGraph.Log.Level
import CallGraph.Log.Logger
import CallGraph.Main
import CallGraph.Name.Canonical
import CallGraph.Name.Generic
import CallGraph.Name.Managed
import CallGraph.Number.Basic
import CallGraph.Number.Decimal
import CallGraph.Number.Hex
import CallGraph.Number.Reading
import CallGraph.Number.Rounding
import CallGraph.Proofs.Command.Answering
import CallGraph.Proofs.Command.DumpRun
import CallGraph.Proofs.Command.Files
import CallGraph.Proofs.Command.Fitting
import CallGraph.Proofs.Command.LongAnswers
import CallGraph.Proofs.Command.Outcomes
import CallGraph.Proofs.Command.ReadBack
import CallGraph.Proofs.Command.ToolRuns
import CallGraph.Proofs.Config.Applying
import CallGraph.Proofs.Demangler.Batching
import CallGraph.Proofs.Demangler.Calls
import CallGraph.Proofs.Demangler.Knowing
import CallGraph.Proofs.Demangler.LifeCycle
import CallGraph.Proofs.Demangler.Replies
import CallGraph.Proofs.Document.Finding
import CallGraph.Proofs.Document.Grouping
import CallGraph.Proofs.Document.Layout
import CallGraph.Proofs.Document.Order
import CallGraph.Proofs.Document.RoundTrip
import CallGraph.Proofs.FileSystem.Keeping
import CallGraph.Proofs.FileSystem.ReadBack
import CallGraph.Proofs.Graph.Accounting
import CallGraph.Proofs.Graph.Comparing
import CallGraph.Proofs.Graph.Counting
import CallGraph.Proofs.Graph.Guarding
import CallGraph.Proofs.Graph.Narrowing
import CallGraph.Proofs.Graph.OfSnapshot
import CallGraph.Proofs.Graph.Overwriting
import CallGraph.Proofs.Graph.Rebasing
import CallGraph.Proofs.Graph.Reordering
import CallGraph.Proofs.Graph.Running
import CallGraph.Proofs.Json.Length
import CallGraph.Proofs.Json.Members
import CallGraph.Proofs.Json.Numerals
import CallGraph.Proofs.Json.Order
import CallGraph.Proofs.Json.Overlay
import CallGraph.Proofs.Json.Printing
import CallGraph.Proofs.Json.RoundTrip
import CallGraph.Proofs.Json.Size
import CallGraph.Proofs.Json.Tokens
import CallGraph.Proofs.Json.Values
import CallGraph.Proofs.Log.Lines
import CallGraph.Proofs.Name.Form
import CallGraph.Proofs.Name.Generated
import CallGraph.Proofs.Name.Idempotence
import CallGraph.Proofs.Name.Instances
import CallGraph.Proofs.Name.Layout
import CallGraph.Proofs.Name.Managed
import CallGraph.Proofs.Number.Binary64
import CallGraph.Proofs.Number.Hexadecimal
import CallGraph.Proofs.Number.Safe
import CallGraph.Proofs.Number.Shortest
import CallGraph.Proofs.Schema.Acceptance
import CallGraph.Proofs.Schema.Meaning
import CallGraph.Proofs.Snapshot.Addresses
import CallGraph.Proofs.Snapshot.Asking
import CallGraph.Proofs.Snapshot.Covering
import CallGraph.Proofs.Snapshot.Exports
import CallGraph.Proofs.Snapshot.Respelling
import CallGraph.Proofs.Snapshot.Searching
import CallGraph.Proofs.Snapshot.WellFormed
import CallGraph.Proofs.Snapshot.Writing
import CallGraph.Proofs.Text.Cutting
import CallGraph.Proofs.Text.Distinct
import CallGraph.Proofs.Text.Order
import CallGraph.Proofs.Text.Pieces
import CallGraph.Proofs.Text.Replacing
import CallGraph.Schema.Checked
import CallGraph.Schema.Problem
import CallGraph.Snapshot.Address
import CallGraph.Snapshot.Basic
import CallGraph.Snapshot.Index
import CallGraph.Snapshot.Reading
import CallGraph.Text.Blank
import CallGraph.Text.CodePoint
import CallGraph.Text.Pattern
