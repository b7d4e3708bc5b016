import PresetWorkspace.Call
import PresetWorkspace.Catalog
import PresetWorkspace.Color
import PresetWorkspace.CommandLine.Invocation
import PresetWorkspace.CommandLine.Option
import PresetWorkspace.Decimal.Binary64
import PresetWorkspace.Decimal.Notation
import PresetWorkspace.Decimal.Shortest
import PresetWorkspace.Document.Fault
import PresetWorkspace.Document.Lexeme
import PresetWorkspace.Document.Reader
import PresetWorkspace.Document.Schema
import PresetWorkspace.Document.Skip
import PresetWorkspace.Document.Writer
import PresetWorkspace.Failure
import PresetWorkspace.FilePath
import PresetWorkspace.FileTree
import PresetWorkspace.Host
import PresetWorkspace.Json
import PresetWorkspace.Log
import PresetWorkspace.Main
import PresetWorkspace.Markdown
import PresetWorkspace.Materialize
import PresetWorkspace.OutputFormat
import PresetWorkspace.Preset
import PresetWorkspace.Program
import PresetWorkspace.Proofs.Acceptance
import PresetWorkspace.Proofs.Arguments
import PresetWorkspace.Proofs.Atomicity
import PresetWorkspace.Proofs.ByteOrder
import PresetWorkspace.Proofs.Calls
import PresetWorkspace.Proofs.Cascade
import PresetWorkspace.Proofs.Children
import PresetWorkspace.Proofs.Consistency
import PresetWorkspace.Proofs.Components
import PresetWorkspace.Proofs.Contents
import PresetWorkspace.Proofs.Decoding
import PresetWorkspace.Proofs.DryRun
import PresetWorkspace.Proofs.Edits
import PresetWorkspace.Proofs.EitherSide
import PresetWorkspace.Proofs.Except
import PresetWorkspace.Proofs.Finiteness
import PresetWorkspace.Proofs.FirstRejection
import PresetWorkspace.Proofs.FolderEntries
import PresetWorkspace.Proofs.Growth
import PresetWorkspace.Proofs.History
import PresetWorkspace.Proofs.Isolation
import PresetWorkspace.Proofs.JsonText
import PresetWorkspace.Proofs.LargerTrees
import PresetWorkspace.Proofs.Leaves
import PresetWorkspace.Proofs.Levels
import PresetWorkspace.Proofs.Listing
import PresetWorkspace.Proofs.Loaded
import PresetWorkspace.Proofs.Nesting
import PresetWorkspace.Proofs.NewGroup
import PresetWorkspace.Proofs.Numeral
import PresetWorkspace.Proofs.Outline
import PresetWorkspace.Proofs.Output
import PresetWorkspace.Proofs.Precedence
import PresetWorkspace.Proofs.RatioText
import PresetWorkspace.Proofs.ReadBack
import PresetWorkspace.Proofs.Reads
import PresetWorkspace.Proofs.References
import PresetWorkspace.Proofs.Refusals
import PresetWorkspace.Proofs.Removal
import PresetWorkspace.Proofs.RoundTrip
import PresetWorkspace.Proofs.Rounding
import PresetWorkspace.Proofs.Rows
import PresetWorkspace.Proofs.Runs
import PresetWorkspace.Proofs.Script
import PresetWorkspace.Proofs.Shortest
import PresetWorkspace.Proofs.Sides
import PresetWorkspace.Proofs.Skipping
import PresetWorkspace.Proofs.Spelling
import PresetWorkspace.Proofs.Survival
import PresetWorkspace.Proofs.TodoLines
import PresetWorkspace.Proofs.Trace
import PresetWorkspace.Proofs.Trees
import PresetWorkspace.Ratios
import PresetWorkspace.Record
import PresetWorkspace.Settings.Basic
import PresetWorkspace.Settings.Discovery
import PresetWorkspace.Settings.File
import PresetWorkspace.Settings.Layer
import PresetWorkspace.Text.Quoted
import PresetWorkspace.Text.Visible
import PresetWorkspace.Uuid
import PresetWorkspace.Workspace.Create
import PresetWorkspace.Workspace.Edit
import PresetWorkspace.Workspace.Error
import PresetWorkspace.Workspace.Key
import PresetWorkspace.Workspace.Read
import PresetWorkspace.Workspace.Session
import PresetWorkspace.Workspace.Snapshot
import PresetWorkspace.Workspace.Storage
import PresetWorkspace.Workspace.Table
import PresetWorkspace.Yaml.Glyph
import PresetWorkspace.Yaml.Node
import PresetWorkspace.Yaml.Scalar
import PresetWorkspace.Yaml.Token
