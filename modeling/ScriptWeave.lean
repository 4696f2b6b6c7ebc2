import ScriptWeave.Batch.Changes
import ScriptWeave.Batch.Log
import ScriptWeave.Batch.Report
import ScriptWeave.Batch.Run
import ScriptWeave.BuildError
import ScriptWeave.CommandLine.Arguments
import ScriptWeave.CommandLine.Build
import ScriptWeave.CommandLine.Finish
import ScriptWeave.CommandLine.Init
import ScriptWeave.CommandLine.Run
import ScriptWeave.Compile.Command
import ScriptWeave.Compile.Compiler
import ScriptWeave.Compile.Diagnosis
import ScriptWeave.FilePath
import ScriptWeave.FileTree.Basic
import ScriptWeave.FileTree.Locate
import ScriptWeave.FileTree.Operations
import ScriptWeave.FileTree.Snapshot
import ScriptWeave.Ignore.Glob
import ScriptWeave.Ignore.Rules
import ScriptWeave.Json.Basic
import ScriptWeave.Json.Number
import ScriptWeave.Json.Printer
import ScriptWeave.Json.Reader
import ScriptWeave.Json.Token
import ScriptWeave.Main
import ScriptWeave.Markup.Block
import ScriptWeave.Markup.Scan
import ScriptWeave.Markup.Segments
import ScriptWeave.Markup.Weave
import ScriptWeave.Number.Binary64
import ScriptWeave.Number.Rounding
import ScriptWeave.Options.Directive
import ScriptWeave.Options.Effective
import ScriptWeave.Options.Layer
import ScriptWeave.Project.Collect
import ScriptWeave.Project.Config
import ScriptWeave.Project.Debounce
import ScriptWeave.Project.Output
import ScriptWeave.Project.Routes
import ScriptWeave.Project.Scope
import ScriptWeave.Shell.Act
import ScriptWeave.Shell.Arithmetic
import ScriptWeave.Shell.Builtin
import ScriptWeave.Shell.Bytes
import ScriptWeave.Shell.Expansion
import ScriptWeave.Shell.Fields
import ScriptWeave.Shell.Lookup
import ScriptWeave.Shell.Machine
import ScriptWeave.Shell.Nested
import ScriptWeave.Shell.Pattern
import ScriptWeave.Shell.Printf
import ScriptWeave.Shell.Program.Basic
import ScriptWeave.Shell.Program.ByName
import ScriptWeave.Shell.Program.Cat
import ScriptWeave.Shell.Program.Ends
import ScriptWeave.Shell.Program.Grep
import ScriptWeave.Shell.Program.Ls
import ScriptWeave.Shell.Program.Quoting
import ScriptWeave.Shell.Program.Tr
import ScriptWeave.Shell.Program.Wc
import ScriptWeave.Shell.Reader
import ScriptWeave.Shell.Redirection
import ScriptWeave.Shell.Regex
import ScriptWeave.Shell.RegexReader
import ScriptWeave.Shell.Run
import ScriptWeave.Shell.Signal
import ScriptWeave.Shell.Source
import ScriptWeave.Shell.Start
import ScriptWeave.Shell.Syntax
import ScriptWeave.Shell.Test
import ScriptWeave.SortedMap
import ScriptWeave.Text.Blank
import ScriptWeave.Text.CaseFold
import ScriptWeave.Text.Lenient
import ScriptWeave.Text.Quoted
import ScriptWeave.Text.Unprintable
import ScriptWeave.Toml.Document
import ScriptWeave.Toml.Scalar
import ScriptWeave.Toml.Text
import ScriptWeave.Toml.Value
import ScriptWeave.Proofs.Markup.Leftmost
import ScriptWeave.Proofs.Compile.Asking
import ScriptWeave.Proofs.Markup.Weaving
import ScriptWeave.Proofs.Batch.Visits
import ScriptWeave.Proofs.Batch.Output
import ScriptWeave.Proofs.Batch.Failure
import ScriptWeave.Proofs.Markup.Seams
import ScriptWeave.Proofs.Markup.Canonical
import ScriptWeave.Proofs.Markup.Appending
import ScriptWeave.Proofs.Markup.Lookalikes
import ScriptWeave.Proofs.Text.Splitting
import ScriptWeave.Proofs.FileTree.Locations
import ScriptWeave.Proofs.FileTree.Walking
import ScriptWeave.Proofs.FileTree.Paths
import ScriptWeave.Proofs.FileTree.Below
import ScriptWeave.Proofs.FileTree.Files
import ScriptWeave.Proofs.FileTree.Disk
import ScriptWeave.Proofs.Batch.Project
import ScriptWeave.Proofs.Project.Writing
import ScriptWeave.Proofs.Project.Clashes
import ScriptWeave.Proofs.Project.Incremental
import ScriptWeave.Proofs.Options.LastWord
import ScriptWeave.Proofs.Batch.Calls
import ScriptWeave.Proofs.Compile.Resetting
import ScriptWeave.Proofs.Project.Walk
import ScriptWeave.Proofs.Ignore.Parents
import ScriptWeave.Proofs.Project.Agreement
import ScriptWeave.Proofs.Batch.SourceMaps
import ScriptWeave.Proofs.Project.Keys
import ScriptWeave.Proofs.Project.Containment
import ScriptWeave.Proofs.FileTree.Effects
import ScriptWeave.Proofs.Project.Realising
import ScriptWeave.Proofs.FileTree.Growth
import ScriptWeave.Proofs.FileTree.Untouched
import ScriptWeave.Proofs.Project.Landing
import ScriptWeave.Proofs.Project.ReadingBack
import ScriptWeave.Proofs.Project.KeptRules
import ScriptWeave.Proofs.Project.Rebuilding
import ScriptWeave.Proofs.Batch.Insertions
import ScriptWeave.Proofs.Batch.Retrying
import ScriptWeave.Proofs.Batch.Parts
import ScriptWeave.Proofs.Batch.Trace
import ScriptWeave.Proofs.CommandLine.AllOrNothing
import ScriptWeave.Proofs.Options.Directives
import ScriptWeave.Proofs.Options.Stacking
import ScriptWeave.Proofs.Options.Grouping
import ScriptWeave.Proofs.Options.Expressing
import ScriptWeave.Proofs.Json.Numbers
import ScriptWeave.Proofs.Json.Tokens
import ScriptWeave.Proofs.Json.Reading
import ScriptWeave.Proofs.Json.Printing
import ScriptWeave.Proofs.Compile.Replies
import ScriptWeave.Proofs.Options.Supplied
import ScriptWeave.Proofs.Options.Encoding
import ScriptWeave.Proofs.Compile.Parting
import ScriptWeave.Proofs.Markup.LetterCase
import ScriptWeave.Proofs.Compile.Undoing
import ScriptWeave.Proofs.Compile.Reporting
import ScriptWeave.Proofs.Project.Routing
import ScriptWeave.Proofs.Project.PathSets
import ScriptWeave.Proofs.Project.Gathering
import ScriptWeave.Proofs.Batch.Sizes
