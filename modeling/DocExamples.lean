import DocExamples.Text.Utf8
import DocExamples.Text.AsciiSet
import DocExamples.Text.Escaped
import DocExamples.Dict
import DocExamples.Source.Line
import DocExamples.Source.Cursor
import DocExamples.Diagnostic.Problem
import DocExamples.Diagnostic.SyntaxError
import DocExamples.Log.Event
import DocExamples.Shell.Word
import DocExamples.Shell.Assignment
import DocExamples.Shell.Command
import DocExamples.Shell.Run
import DocExamples.Shell.InlineFile
import DocExamples.Text.Space
import DocExamples.Fence
import DocExamples.Files
import DocExamples.Check.Error
import DocExamples.Config.Toml
import DocExamples.Config.Basic
import DocExamples.Diff.Edit
import DocExamples.Diff.Unified
import DocExamples.Check.Document
import DocExamples.Text.Width
import DocExamples.Text.Wrap
import DocExamples.Text.Style
import DocExamples.Text.Json
import DocExamples.Text.Similarity
import DocExamples.Log.Filter
import DocExamples.Log.Line
import DocExamples.Cli.Spec
import DocExamples.Cli.Args
import DocExamples.Cli.Report
import DocExamples.Cli.Outcome
import DocExamples.Main
import DocExamples.Proofs.Encoding
import DocExamples.Proofs.Reading
import DocExamples.Proofs.CommandText
import DocExamples.Proofs.Layout
import DocExamples.Proofs.Findings
import DocExamples.Proofs.LineEnds
import DocExamples.Proofs.Warnings
import DocExamples.Proofs.Progress
import DocExamples.Proofs.InlineFiles
import DocExamples.Proofs.Invocation
import DocExamples.Proofs.WordGrammar
import DocExamples.Proofs.Termination
import DocExamples.Proofs.FenceLines
import DocExamples.Proofs.Overlay
import DocExamples.Proofs.FenceOpening
import DocExamples.Proofs.Excerpt
import DocExamples.Proofs.Unclosed
import DocExamples.Proofs.AsciiMask
import DocExamples.Proofs.ErrorColumns
import DocExamples.Proofs.SessionLine
import DocExamples.Proofs.Decoding
