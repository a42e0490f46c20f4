import BuildMatrix.Cache.Archive
import BuildMatrix.Cache.Database
import BuildMatrix.Cache.Entry
import BuildMatrix.Cache.Key
import BuildMatrix.Cache.Log
import BuildMatrix.Cache.Policy
import BuildMatrix.Cache.Resolution
import BuildMatrix.Cache.Store
import BuildMatrix.Cache.Table
import BuildMatrix.CommandLine.Arguments
import BuildMatrix.CommandLine.Commands
import BuildMatrix.Console.Lines
import BuildMatrix.Console.Style
import BuildMatrix.Decimal.Binary64
import BuildMatrix.Decimal.Notation
import BuildMatrix.Decimal.Shortest
import BuildMatrix.Digest.Sha256
import BuildMatrix.Environment
import BuildMatrix.Execution.Engine
import BuildMatrix.Execution.Progress
import BuildMatrix.Execution.Scene
import BuildMatrix.Execution.Schedule
import BuildMatrix.Execution.Script
import BuildMatrix.Execution.Task
import BuildMatrix.FileSystem.Layout
import BuildMatrix.FileSystem.Lookup
import BuildMatrix.FileSystem.Node
import BuildMatrix.FileSystem.Operations
import BuildMatrix.FileSystem.Path
import BuildMatrix.Ident
import BuildMatrix.Json.Printer
import BuildMatrix.Json.Reader
import BuildMatrix.Json.Record
import BuildMatrix.Json.Source
import BuildMatrix.Json.Value
import BuildMatrix.LocalHost
import BuildMatrix.Main
import BuildMatrix.Matrix.Expansion
import BuildMatrix.Matrix.Plan
import BuildMatrix.Matrix.Slug
import BuildMatrix.Provision
import BuildMatrix.Run.Event
import BuildMatrix.Run.Exchange
import BuildMatrix.Run.Report
import BuildMatrix.Run.Status
import BuildMatrix.Shell.Arithmetic
import BuildMatrix.Shell.Condition
import BuildMatrix.Shell.Evaluation
import BuildMatrix.Shell.Field
import BuildMatrix.Shell.Filter
import BuildMatrix.Shell.Octets
import BuildMatrix.Shell.Pattern
import BuildMatrix.Shell.Program
import BuildMatrix.Shell.State
import BuildMatrix.Shell.Statement
import BuildMatrix.Shell.Template
import BuildMatrix.Shell.Token
import BuildMatrix.Shell.Tool
import BuildMatrix.Shell.Word
import BuildMatrix.Step.Basic
import BuildMatrix.Step.Command
import BuildMatrix.Step.Context
import BuildMatrix.Step.Exchange
import BuildMatrix.Step.Failure
import BuildMatrix.TestFilter
import BuildMatrix.Text.Blank
import BuildMatrix.Text.Digit
import BuildMatrix.Text.Extending
import BuildMatrix.Text.Invisible
import BuildMatrix.Text.Quoted
import BuildMatrix.Text.Split
import BuildMatrix.Text.Utf8
import BuildMatrix.Time.Calendar
import BuildMatrix.Time.Instant
import BuildMatrix.Version
import BuildMatrix.Workflow.Basic
import BuildMatrix.Workflow.Config
import BuildMatrix.Workflow.Loading
import BuildMatrix.Workflow.Reading
import BuildMatrix.Workflow.Validation
import BuildMatrix.Workspace
import BuildMatrix.Yaml.Cursor
import BuildMatrix.Yaml.Document
import BuildMatrix.Yaml.Event
import BuildMatrix.Yaml.Lexeme.Block
import BuildMatrix.Yaml.Lexeme.Flow
import BuildMatrix.Yaml.Lexeme.Name
import BuildMatrix.Yaml.Lexer
import BuildMatrix.Yaml.Scalar
import BuildMatrix.Yaml.Token
import BuildMatrix.Yaml.Value
import BuildMatrix.Proofs.Progress.Account
import BuildMatrix.Proofs.Progress.Outcome
import BuildMatrix.Proofs.Progress.Run
import BuildMatrix.Proofs.Execution.Run
import BuildMatrix.Proofs.Cache.Entries
import BuildMatrix.Proofs.Execution.Store
import BuildMatrix.Proofs.Task.Cancelled
import BuildMatrix.Proofs.Execution.Cancellation
import BuildMatrix.Proofs.FileSystem.Tree
import BuildMatrix.Proofs.FileSystem.Walk
import BuildMatrix.Proofs.FileSystem.Path
import BuildMatrix.Proofs.FileSystem.Operations
import BuildMatrix.Proofs.FileSystem.Entry
import BuildMatrix.Proofs.Workspace.Copy
import BuildMatrix.Proofs.Matrix.Slug
import BuildMatrix.Proofs.Workspace.Stage
import BuildMatrix.Proofs.FileSystem.Region
import BuildMatrix.Proofs.Cache.Restore
import BuildMatrix.Proofs.Workspace.Manifest
import BuildMatrix.Proofs.Task.Files
import BuildMatrix.Proofs.Execution.Housing
import BuildMatrix.Proofs.Execution.Forecast
import BuildMatrix.Proofs.Execution.Isolation
import BuildMatrix.Proofs.Task.Events
import BuildMatrix.Proofs.Execution.Events
import BuildMatrix.Proofs.Text.Utf8
import BuildMatrix.Proofs.Cache.Requests
import BuildMatrix.Proofs.Json.Quoted
import BuildMatrix.Proofs.Cache.Payload
import BuildMatrix.Proofs.FileSystem.Parent
import BuildMatrix.Proofs.FileSystem.Growth
import BuildMatrix.Proofs.FileSystem.Making
import BuildMatrix.Proofs.FileSystem.Reaching
import BuildMatrix.Proofs.Cache.Files
import BuildMatrix.Proofs.Cache.RoundTrip
import BuildMatrix.Proofs.Cache.Reuse
import BuildMatrix.Proofs.Text.Cut
import BuildMatrix.Proofs.TestFilter.RoundTrip
import BuildMatrix.Proofs.FileSystem.Passing
import BuildMatrix.Proofs.Workspace.Route
import BuildMatrix.Proofs.Execution.ManifestLookup
import BuildMatrix.Proofs.Task.Installation
import BuildMatrix.Proofs.Workflow.Validation
import BuildMatrix.Proofs.Execution.Manifest
import BuildMatrix.Proofs.Matrix.Expansion
import BuildMatrix.Proofs.Matrix.Label
import BuildMatrix.Proofs.Workflow.Soundness
import BuildMatrix.Proofs.Matrix.Words
import BuildMatrix.Proofs.Cache.Directory
import BuildMatrix.Proofs.Matrix.Product
import BuildMatrix.Proofs.Json.Record
import BuildMatrix.Proofs.Run.Ident
import BuildMatrix.Proofs.Run.Exchange
import BuildMatrix.Proofs.Execution.Completeness
import BuildMatrix.Proofs.Execution.Labels
import BuildMatrix.Proofs.Execution.Schedule
import BuildMatrix.Proofs.CommandLine.Running
import BuildMatrix.Proofs.Workspace.Inside
import BuildMatrix.Proofs.Workspace.Staging
import BuildMatrix.Proofs.Workspace.Success
import BuildMatrix.Proofs.Workspace.Pruning
import BuildMatrix.Proofs.Workspace.Sharing
import BuildMatrix.Proofs.TestFilter.Soundness
import BuildMatrix.Proofs.Cache.Unpacking
import BuildMatrix.Proofs.Cache.Refusal
import BuildMatrix.Proofs.Cache.Containment
import BuildMatrix.Proofs.Workspace.Traversal
import BuildMatrix.Proofs.Workspace.Termination
import BuildMatrix.Proofs.Workspace.Exactness
import BuildMatrix.Proofs.Cache.Key
import BuildMatrix.Proofs.Cache.Precedence
import BuildMatrix.Proofs.Execution.Lookups
import BuildMatrix.Proofs.Cache.Namespace
import BuildMatrix.Proofs.Task.Setup
import BuildMatrix.Proofs.Execution.Setup
import BuildMatrix.Proofs.Matrix.Multiplicity
import BuildMatrix.Proofs.Workflow.Axes
import BuildMatrix.Proofs.Workflow.Repetition
import BuildMatrix.Proofs.Text.Replacement
import BuildMatrix.Proofs.Provision.Selection
import BuildMatrix.Proofs.Cache.Enumeration
import BuildMatrix.Proofs.Environment
import BuildMatrix.Proofs.Workflow.Commands
import BuildMatrix.Proofs.Workflow.Reading
import BuildMatrix.Proofs.Task.Commands
import BuildMatrix.Proofs.Execution.Commands
import BuildMatrix.Proofs.Version.Components
import BuildMatrix.Proofs.Text.Pattern
import BuildMatrix.Proofs.Version.Reported
import BuildMatrix.Proofs.Matrix.NormalForm
import BuildMatrix.Proofs.Workflow.Entries
