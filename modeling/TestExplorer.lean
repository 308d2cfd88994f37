import TestExplorer.CommandLine.Arguments
import TestExplorer.CommandLine.Commands
import TestExplorer.CommandLine.Console
import TestExplorer.CommandLine.Execution
import TestExplorer.CommandLine.Help
import TestExplorer.CommandLine.Listing
import TestExplorer.CommandLine.Request
import TestExplorer.CommandLine.Selection
import TestExplorer.Config
import TestExplorer.ConfigFile
import TestExplorer.Controller.Activity
import TestExplorer.Controller.Discovery
import TestExplorer.Controller.Interleaving
import TestExplorer.Controller.Rehearsal
import TestExplorer.Controller.Requests
import TestExplorer.Controller.Running
import TestExplorer.Document
import TestExplorer.Duration
import TestExplorer.Failure
import TestExplorer.FileSystem.Basic
import TestExplorer.FileSystem.Layout
import TestExplorer.Frontend
import TestExplorer.Ignore.Glob
import TestExplorer.Ignore.Listing
import TestExplorer.Ignore.Rules
import TestExplorer.Interpreter
import TestExplorer.Json
import TestExplorer.Main
import TestExplorer.Marker
import TestExplorer.Notice
import TestExplorer.Path
import TestExplorer.Presentation
import TestExplorer.Proofs.Address
import TestExplorer.Proofs.Buffers
import TestExplorer.Proofs.Components
import TestExplorer.Proofs.Discovery
import TestExplorer.Proofs.Disposal
import TestExplorer.Proofs.Execution
import TestExplorer.Proofs.ExitCode
import TestExplorer.Proofs.History
import TestExplorer.Proofs.Identifier
import TestExplorer.Proofs.Interleaving.Guard
import TestExplorer.Proofs.Interleaving.Launches
import TestExplorer.Proofs.Interleaving.Overtaking
import TestExplorer.Proofs.Interleaving.Phase
import TestExplorer.Proofs.Interleaving.Record
import TestExplorer.Proofs.Interleaving.Stage
import TestExplorer.Proofs.Interleaving.Staging
import TestExplorer.Proofs.Interleaving.Turns
import TestExplorer.Proofs.Interleaving.Versions
import TestExplorer.Proofs.Isolation
import TestExplorer.Proofs.LineEndings
import TestExplorer.Proofs.LineShift
import TestExplorer.Proofs.Listings
import TestExplorer.Proofs.Reconciliation
import TestExplorer.Proofs.Requests
import TestExplorer.Proofs.Resolution
import TestExplorer.Proofs.Run.Calls
import TestExplorer.Proofs.Run.Label
import TestExplorer.Proofs.Run.Plan
import TestExplorer.Proofs.Run.Progress
import TestExplorer.Proofs.Run.Report
import TestExplorer.Proofs.Run.Scope
import TestExplorer.Proofs.Run.Selection
import TestExplorer.Proofs.Run.Session
import TestExplorer.Proofs.Scan.Argument
import TestExplorer.Proofs.Scan.Fillers
import TestExplorer.Proofs.Scan.Grouping
import TestExplorer.Proofs.Scan.Items
import TestExplorer.Proofs.Scan.LineKind
import TestExplorer.Proofs.Scan.Lines
import TestExplorer.Proofs.Scan.Moving
import TestExplorer.Proofs.Scan.Names
import TestExplorer.Proofs.Scan.Rendering
import TestExplorer.Proofs.Scan.Spans
import TestExplorer.Proofs.Server.Conversation
import TestExplorer.Proofs.Server.Currency
import TestExplorer.Proofs.Server.Forwarding
import TestExplorer.Proofs.Server.Publishing
import TestExplorer.Proofs.Server.Ranges
import TestExplorer.Proofs.Server.Shown
import TestExplorer.Proofs.Server.View
import TestExplorer.Proofs.Settings.Extensions
import TestExplorer.Proofs.Settings.Layers
import TestExplorer.Proofs.Settings.Precedence
import TestExplorer.Proofs.Sources.Listing
import TestExplorer.Proofs.Sources.Paths
import TestExplorer.Proofs.Sources.Places
import TestExplorer.Proofs.Sources.Walk
import TestExplorer.Proofs.Standing
import TestExplorer.Proofs.Stories
import TestExplorer.Proofs.Summary
import TestExplorer.Proofs.Tree.Carrying
import TestExplorer.Proofs.Tree.Composition
import TestExplorer.Proofs.Tree.Contents
import TestExplorer.Proofs.Tree.FreeIdentifier
import TestExplorer.Proofs.Tree.Growth
import TestExplorer.Proofs.Tree.Insertion
import TestExplorer.Proofs.Tree.Locations
import TestExplorer.Proofs.Tree.Lookup
import TestExplorer.Proofs.Tree.Moving
import TestExplorer.Proofs.Tree.Numbering
import TestExplorer.Proofs.Tree.Operations
import TestExplorer.Proofs.Tree.Outline
import TestExplorer.Proofs.Tree.Part
import TestExplorer.Proofs.Tree.Repetition
import TestExplorer.Proofs.Tree.Replacement
import TestExplorer.Proofs.Tree.Separation
import TestExplorer.Proofs.Verdict
import TestExplorer.Proofs.Writes
import TestExplorer.Run.Plan
import TestExplorer.Run.Report
import TestExplorer.Run.Session
import TestExplorer.Scan
import TestExplorer.Server.Addresses
import TestExplorer.Server.Diagnostics
import TestExplorer.Server.Forwarding
import TestExplorer.Server.Message
import TestExplorer.Server.Methods
import TestExplorer.Server.Params
import TestExplorer.Server.Percent
import TestExplorer.Server.Progress
import TestExplorer.Server.Service
import TestExplorer.Server.Session
import TestExplorer.Server.Shape
import TestExplorer.Server.Uri
import TestExplorer.Shell.Arithmetic
import TestExplorer.Shell.Builtins
import TestExplorer.Shell.Condition
import TestExplorer.Shell.Escape
import TestExplorer.Shell.Eval
import TestExplorer.Shell.Expansion
import TestExplorer.Shell.Format
import TestExplorer.Shell.Parser
import TestExplorer.Shell.Programs
import TestExplorer.Shell.Redirection
import TestExplorer.Shell.Start
import TestExplorer.Shell.State
import TestExplorer.Shell.Token
import TestExplorer.Sources
import TestExplorer.Text.Blank
import TestExplorer.Text.Lines
import TestExplorer.Text.Number
import TestExplorer.Text.Quoted
import TestExplorer.Text.Search
import TestExplorer.Text.Utf8
import TestExplorer.Text.Visible
import TestExplorer.Toml.Basic
import TestExplorer.Toml.Parser
import TestExplorer.Toml.Quoted
import TestExplorer.Toml.Scalar
import TestExplorer.Tree.Basic
import TestExplorer.Tree.Insertion
import TestExplorer.Tree.Node
import TestExplorer.Verdict
import TestExplorer.Version
import TestExplorer.Walker
