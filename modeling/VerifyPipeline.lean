import VerifyPipeline.Binary64.Basic
import VerifyPipeline.Binary64.Shortest
import VerifyPipeline.Calendar
import VerifyPipeline.CommandLine.Arguments
import VerifyPipeline.CommandLine.Options
import VerifyPipeline.CommandLine.Run
import VerifyPipeline.CommandLine.UsageError
import VerifyPipeline.Config
import VerifyPipeline.Feature.Catalog
import VerifyPipeline.Feature.Selection
import VerifyPipeline.Feature.Set
import VerifyPipeline.Files.Operations
import VerifyPipeline.Files.OsError
import VerifyPipeline.Files.Resolve
import VerifyPipeline.Files.Tree
import VerifyPipeline.Hash.Sha256
import VerifyPipeline.Host.Basic
import VerifyPipeline.Json.Basic
import VerifyPipeline.Json.Cursor
import VerifyPipeline.Json.Decoder.Adjacent
import VerifyPipeline.Json.Decoder.Basic
import VerifyPipeline.Json.Decoder.Choice
import VerifyPipeline.Json.Decoder.Record
import VerifyPipeline.Json.Decoder.Tagged
import VerifyPipeline.Json.Failure
import VerifyPipeline.Json.Reader
import VerifyPipeline.Json.Writer
import VerifyPipeline.Log.Emitter
import VerifyPipeline.Log.Entry
import VerifyPipeline.Log.File
import VerifyPipeline.Log.Schema
import VerifyPipeline.Main
import VerifyPipeline.Path.Basic
import VerifyPipeline.Plan.Basic
import VerifyPipeline.Plan.Build
import VerifyPipeline.Plan.Command
import VerifyPipeline.Plan.Fingerprint
import VerifyPipeline.Plan.Preview
import VerifyPipeline.Plan.Step
import VerifyPipeline.Proofs.Calendar.Counting
import VerifyPipeline.Proofs.Calendar.Moments
import VerifyPipeline.Proofs.Calendar.Words
import VerifyPipeline.Proofs.CommandLine.Artifacts
import VerifyPipeline.Proofs.CommandLine.ExitCode
import VerifyPipeline.Proofs.CommandLine.Preview
import VerifyPipeline.Proofs.CommandLine.Report
import VerifyPipeline.Proofs.CommandLine.Root
import VerifyPipeline.Proofs.CommandLine.Shown
import VerifyPipeline.Proofs.CommandLine.Warnings
import VerifyPipeline.Proofs.Feature.Arguments
import VerifyPipeline.Proofs.Feature.Canonical
import VerifyPipeline.Proofs.Feature.Making
import VerifyPipeline.Proofs.Files.Enterable
import VerifyPipeline.Proofs.Files.Growth
import VerifyPipeline.Proofs.Files.Saving
import VerifyPipeline.Proofs.Files.Sparing
import VerifyPipeline.Proofs.Files.Walking
import VerifyPipeline.Proofs.Json.Adjacent
import VerifyPipeline.Proofs.Json.Bounds
import VerifyPipeline.Proofs.Json.Canonical
import VerifyPipeline.Proofs.Json.Decoding
import VerifyPipeline.Proofs.Json.Recognizing
import VerifyPipeline.Proofs.Json.Records
import VerifyPipeline.Proofs.Json.Tokens
import VerifyPipeline.Proofs.Json.Values
import VerifyPipeline.Proofs.Log.Emission
import VerifyPipeline.Proofs.Log.Joining
import VerifyPipeline.Proofs.Log.Lines
import VerifyPipeline.Proofs.Log.Normalizing
import VerifyPipeline.Proofs.Log.Numbering
import VerifyPipeline.Proofs.Log.ReadBack
import VerifyPipeline.Proofs.Log.Validation
import VerifyPipeline.Proofs.Log.Vocabulary
import VerifyPipeline.Proofs.Log.WellFormed
import VerifyPipeline.Proofs.Path.Segments
import VerifyPipeline.Proofs.Plan.Characters
import VerifyPipeline.Proofs.Plan.Faithfulness
import VerifyPipeline.Proofs.Plan.Gating
import VerifyPipeline.Proofs.Plan.Ignored
import VerifyPipeline.Proofs.Plan.RoundTrip
import VerifyPipeline.Proofs.Report.Reading
import VerifyPipeline.Proofs.Report.RoundTrip
import VerifyPipeline.Proofs.Report.Runs
import VerifyPipeline.Proofs.Report.Table
import VerifyPipeline.Proofs.Report.Views
import VerifyPipeline.Proofs.Report.Writing
import VerifyPipeline.Proofs.Run.Attempts
import VerifyPipeline.Proofs.Run.Calls
import VerifyPipeline.Proofs.Run.Counts
import VerifyPipeline.Proofs.Run.Elsewhere
import VerifyPipeline.Proofs.Run.FailFast
import VerifyPipeline.Proofs.Run.Identification
import VerifyPipeline.Proofs.Run.Independence
import VerifyPipeline.Proofs.Run.Interruption
import VerifyPipeline.Proofs.Run.Invocations
import VerifyPipeline.Proofs.Run.LogOrder
import VerifyPipeline.Proofs.Run.Logging
import VerifyPipeline.Proofs.Run.Messages
import VerifyPipeline.Proofs.Run.PlanOrder
import VerifyPipeline.Proofs.Run.Restoration
import VerifyPipeline.Proofs.Run.Skipping
import VerifyPipeline.Proofs.Run.Success
import VerifyPipeline.Proofs.Run.Timestamps
import VerifyPipeline.Proofs.Run.Verdict
import VerifyPipeline.Proofs.Runner.Commands
import VerifyPipeline.Proofs.Runner.Flags
import VerifyPipeline.Proofs.Runner.StatusWords
import VerifyPipeline.Proofs.Runner.Turns
import VerifyPipeline.Proofs.Text.Bytes
import VerifyPipeline.Proofs.Text.Numerals
import VerifyPipeline.Proofs.Text.Reading
import VerifyPipeline.Proofs.Text.Splitting
import VerifyPipeline.Proofs.Text.Words
import VerifyPipeline.Proofs.Workspace.Entering
import VerifyPipeline.Proofs.Workspace.Guards
import VerifyPipeline.Report.Basic
import VerifyPipeline.Report.Markdown
import VerifyPipeline.Report.Summary
import VerifyPipeline.Report.Write
import VerifyPipeline.Run.Conduct
import VerifyPipeline.Run.Event
import VerifyPipeline.Run.Execute
import VerifyPipeline.Run.InterruptPolicy
import VerifyPipeline.Run.Narration
import VerifyPipeline.Run.Record
import VerifyPipeline.Run.Result
import VerifyPipeline.Run.Termination
import VerifyPipeline.Runner.Basic
import VerifyPipeline.Runner.Flags
import VerifyPipeline.Runner.Process
import VerifyPipeline.Runner.Status
import VerifyPipeline.Text.Blank
import VerifyPipeline.Text.Invisible
import VerifyPipeline.Text.Lines
import VerifyPipeline.Text.Numeral
import VerifyPipeline.Text.Plain
import VerifyPipeline.Text.Quoted
import VerifyPipeline.Text.Search
import VerifyPipeline.Text.Similarity
import VerifyPipeline.Workspace.Basic
import VerifyPipeline.Workspace.Session
import VerifyPipeline.Workspace.Slot
