import FileSelection.Act
import FileSelection.Binary64.Basic
import FileSelection.Binary64.Shortest
import FileSelection.Collection
import FileSelection.CommandLine.Grammar
import FileSelection.CommandLine.Options
import FileSelection.CommandLine.Run
import FileSelection.CopyPlan
import FileSelection.Failure
import FileSelection.FileSystem.Basic
import FileSelection.FileSystem.Edit
import FileSelection.FileSystem.Listing
import FileSelection.FileSystem.Session
import FileSelection.Glob
import FileSelection.Host
import FileSelection.Ignore
import FileSelection.Ignore.Standard
import FileSelection.IgnoreFile
import FileSelection.Keyed
import FileSelection.Main
import FileSelection.Matcher
import FileSelection.Path
import FileSelection.Path.Resolve
import FileSelection.PathList
import FileSelection.Proofs.Act
import FileSelection.Proofs.Alike
import FileSelection.Proofs.Binary64.Rounding
import FileSelection.Proofs.CommandLine.Failures
import FileSelection.Proofs.CommandLine.Precedence
import FileSelection.Proofs.CommandLine.Words
import FileSelection.Proofs.CopyPlan.Reversal
import FileSelection.Proofs.CopyPlan.Stale
import FileSelection.Proofs.CopyPlan.Targets
import FileSelection.Proofs.Failures
import FileSelection.Proofs.FileSystem.Canonical
import FileSelection.Proofs.FileSystem.Descent
import FileSelection.Proofs.FileSystem.Links
import FileSelection.Proofs.FileSystem.Questions
import FileSelection.Proofs.FileSystem.Refusals
import FileSelection.Proofs.Glob.Case
import FileSelection.Proofs.Glob.Compilation
import FileSelection.Proofs.Glob.Meaning
import FileSelection.Proofs.Glob.Prefixed
import FileSelection.Proofs.Glob.Reading
import FileSelection.Proofs.Glob.Repeated
import FileSelection.Proofs.Glob.Segments
import FileSelection.Proofs.Glob.Slashes
import FileSelection.Proofs.Glob.Subtree
import FileSelection.Proofs.Ignore.Laws
import FileSelection.Proofs.Ignore.Standard
import FileSelection.Proofs.Keyed
import FileSelection.Proofs.Path.Names
import FileSelection.Proofs.Path.Resolving
import FileSelection.Proofs.Path.Written
import FileSelection.Proofs.PathList.Handles
import FileSelection.Proofs.PathList.Members
import FileSelection.Proofs.PathList.Questions
import FileSelection.Proofs.PathList.Relisted
import FileSelection.Proofs.PathList.Requests
import FileSelection.Proofs.PathList.Traversal
import FileSelection.Proofs.Recording
import FileSelection.Proofs.Regex.CharRuns
import FileSelection.Proofs.Regex.CharSet
import FileSelection.Proofs.Regex.Denotation
import FileSelection.Proofs.Regex.Faults
import FileSelection.Proofs.Regex.Matching
import FileSelection.Proofs.Regex.Reading
import FileSelection.Proofs.Segmented.Agreement
import FileSelection.Proofs.Segmented.Backtracking
import FileSelection.Proofs.Segmented.Folding
import FileSelection.Proofs.Segmented.Spacing
import FileSelection.Proofs.Segmented.Stars
import FileSelection.Proofs.Selection.Construction
import FileSelection.Proofs.Selection.FailedCalls
import FileSelection.Proofs.Selection.Failures
import FileSelection.Proofs.Selection.Globs
import FileSelection.Proofs.Selection.Grouping
import FileSelection.Proofs.Selection.IgnoreFiles
import FileSelection.Proofs.Sequence.Calls
import FileSelection.Proofs.Sequence.Filtered
import FileSelection.Proofs.Sequence.Gathering
import FileSelection.Proofs.Sequence.Interleaving
import FileSelection.Proofs.Sequence.Moved
import FileSelection.Proofs.Sequence.Reading
import FileSelection.Proofs.Sequence.Settings
import FileSelection.Proofs.Settings.Arrangement
import FileSelection.Proofs.Settings.Failures
import FileSelection.Proofs.Settings.LastValues
import FileSelection.Proofs.Settings.Search
import FileSelection.Proofs.Settings.Spellings
import FileSelection.Proofs.Text.Case
import FileSelection.Proofs.Text.Line
import FileSelection.Proofs.Text.Pieces
import FileSelection.Proofs.Text.Segments
import FileSelection.Proofs.Text.Split
import FileSelection.Proofs.Timestamp
import FileSelection.Proofs.Toml.Faults
import FileSelection.Proofs.Walk.BasePath
import FileSelection.Proofs.Walk.CallOrder
import FileSelection.Proofs.Walk.CallProgress
import FileSelection.Proofs.Walk.Calls
import FileSelection.Proofs.Walk.Containment
import FileSelection.Proofs.Walk.Endings
import FileSelection.Proofs.Walk.Entries
import FileSelection.Proofs.Walk.Lenient
import FileSelection.Proofs.Walk.Moved
import FileSelection.Proofs.Walk.Order
import FileSelection.Proofs.Walk.Pruning
import FileSelection.Proofs.Walk.Scene
import FileSelection.Proofs.Walk.Selection
import FileSelection.Proofs.Walk.Steps
import FileSelection.Proofs.Walk.Strict
import FileSelection.Proofs.Walk.Visited
import FileSelection.Proofs.Walk.Watched
import FileSelection.Regex.Alphabet
import FileSelection.Regex.CharSet
import FileSelection.Regex.Expression
import FileSelection.Regex.Match
import FileSelection.Regex.Parser
import FileSelection.Regex.Part
import FileSelection.Regex.Syntax
import FileSelection.Regex.Ways
import FileSelection.Rules
import FileSelection.Segmented
import FileSelection.Selection
import FileSelection.Settings.Basic
import FileSelection.Settings.File
import FileSelection.Settings.Value
import FileSelection.Text.Blank
import FileSelection.Text.Case
import FileSelection.Text.CaseTable
import FileSelection.Text.Digits
import FileSelection.Text.Line
import FileSelection.Text.Name
import FileSelection.Text.Pieces
import FileSelection.Text.Printable
import FileSelection.Text.Quoted
import FileSelection.Text.Ranges
import FileSelection.Text.Split
import FileSelection.Text.Word
import FileSelection.Timestamp
import FileSelection.Toml.Document
import FileSelection.Toml.Nest
import FileSelection.Toml.Number
import FileSelection.Toml.Text
import FileSelection.Walk.Basic
import FileSelection.Walk.Iteration
