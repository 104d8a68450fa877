import StreamDispatch.Broker
import StreamDispatch.Broker.Group
import StreamDispatch.Broker.Session
import StreamDispatch.Config.Consistent
import StreamDispatch.Config.Consumer
import StreamDispatch.Config.Documents
import StreamDispatch.Config.Listener
import StreamDispatch.Config.Load
import StreamDispatch.Config.Rule
import StreamDispatch.Config.Settings
import StreamDispatch.Context
import StreamDispatch.Dict
import StreamDispatch.Document
import StreamDispatch.Document.Decode
import StreamDispatch.Document.Json.Printer
import StreamDispatch.Document.Json.Reader
import StreamDispatch.Document.Toml.Assembly
import StreamDispatch.Document.Toml.Printer
import StreamDispatch.Document.Toml.Quoted
import StreamDispatch.Document.Toml.Scalar
import StreamDispatch.Document.Toml.Statement
import StreamDispatch.Engine
import StreamDispatch.Engine.Submit
import StreamDispatch.Error
import StreamDispatch.ErrorPolicy
import StreamDispatch.Failure
import StreamDispatch.Number.Binary
import StreamDispatch.Number.Exact
import StreamDispatch.Number.Fixed
import StreamDispatch.Number.Scale
import StreamDispatch.Number.Word
import StreamDispatch.Proofs.Broker.Groups
import StreamDispatch.Proofs.Broker.Shares
import StreamDispatch.Proofs.Delivery.AtLeastOnce
import StreamDispatch.Proofs.Delivery.ExactlyOnce
import StreamDispatch.Proofs.Delivery.Exclusive
import StreamDispatch.Proofs.Delivery.Faithful
import StreamDispatch.Proofs.Delivery.Overtaking
import StreamDispatch.Proofs.Delivery.Polls
import StreamDispatch.Proofs.Delivery.Strategies
import StreamDispatch.Proofs.History
import StreamDispatch.Proofs.Lifecycle.Listing
import StreamDispatch.Proofs.Lifecycle.Phases
import StreamDispatch.Proofs.Lifecycle.Reported
import StreamDispatch.Proofs.Offsets
import StreamDispatch.Proofs.Session.Operations
import StreamDispatch.Proofs.Stand.Logs
import StreamDispatch.Proofs.Stand.Membership
import StreamDispatch.Proofs.Stand.Requests
import StreamDispatch.Proofs.System.Aside
import StreamDispatch.Proofs.System.Batches
import StreamDispatch.Proofs.System.Event
import StreamDispatch.Proofs.System.Gone
import StreamDispatch.Proofs.System.Membership
import StreamDispatch.Proofs.System.Submission
import StreamDispatch.Proofs.Worker.Batch
import StreamDispatch.Proofs.Worker.Course
import StreamDispatch.Proofs.Worker.Front
import StreamDispatch.Proofs.Worker.Move
import StreamDispatch.Proofs.Worker.Progress
import StreamDispatch.Proofs.Worker.Published
import StreamDispatch.Proofs.Worker.Settled
import StreamDispatch.Record
import StreamDispatch.Record.Decoder
import StreamDispatch.Registration
import StreamDispatch.Registration.Walk
import StreamDispatch.Rehearsal.Engine
import StreamDispatch.Rehearsal.Script
import StreamDispatch.Rehearsal.Sessions
import StreamDispatch.Span
import StreamDispatch.Telemetry
import StreamDispatch.Telemetry.Latency
import StreamDispatch.Text.AsciiFold
import StreamDispatch.Text.Blank
import StreamDispatch.Text.Utf8
import StreamDispatch.Topic
import StreamDispatch.Worker
import StreamDispatch.Worker.Lifecycle
import StreamDispatch.Worker.Metrics
import StreamDispatch.Worker.Step
import StreamDispatch.Proofs.Lifecycle.Ended
import StreamDispatch.Proofs.System.Waiting
import StreamDispatch.Proofs.Lifecycle.Registered
import StreamDispatch.Proofs.Rehearsal.Waiting
import StreamDispatch.Proofs.Lifecycle.Shutdown
import StreamDispatch.Proofs.Broker.Renumbered
import StreamDispatch.Proofs.Broker.Alike
import StreamDispatch.Proofs.Session.Alike
import StreamDispatch.Proofs.Stand.Answers
import StreamDispatch.Proofs.Stand.Alike
import StreamDispatch.Proofs.Delivery.Isolated
import StreamDispatch.Proofs.Topics.Compare
import StreamDispatch.Proofs.Submission.Collaborators
import StreamDispatch.Proofs.Submission.Gate
import StreamDispatch.Proofs.Lifecycle.Names
import StreamDispatch.Proofs.Submission.Refused
import StreamDispatch.Proofs.Telemetry.Series
import StreamDispatch.Proofs.Worker.Lives
import StreamDispatch.Proofs.Lifecycle.Accounting
import StreamDispatch.Proofs.Config.EntryRules
import StreamDispatch.Proofs.Worker.Marks
import StreamDispatch.Proofs.Worker.Books
import StreamDispatch.Proofs.Lifecycle.Counters
import StreamDispatch.Proofs.Number.Whole
import StreamDispatch.Proofs.Telemetry.Exported
import StreamDispatch.Proofs.Lifecycle.Journal
import StreamDispatch.Proofs.Number.Decimal
import StreamDispatch.Proofs.Document.Retold
import StreamDispatch.Proofs.Document.Kept
import StreamDispatch.Proofs.Document.Json
import StreamDispatch.Proofs.Document.Toml.Quoted
import StreamDispatch.Proofs.Document.Toml.Scalar
import StreamDispatch.Proofs.Document.Toml.Statement
import StreamDispatch.Proofs.Document.Toml.Assembly
import StreamDispatch.Proofs.Document.Toml.Printed
import StreamDispatch.Proofs.Config.Decoded
import StreamDispatch.Proofs.Config.RoundTrip
import StreamDispatch.Proofs.Session.Collected
import StreamDispatch.Proofs.Delivery.NothingLeft
import StreamDispatch.Proofs.Delivery.Fair
import StreamDispatch.Proofs.Worker.Dispatch
import StreamDispatch.Proofs.Worker.Protocol
import StreamDispatch.Proofs.Worker.Bounded
import StreamDispatch.Proofs.System.Dispatches
import StreamDispatch.Proofs.Stand.Writes
import StreamDispatch.Proofs.Topics.Repair
import StreamDispatch.Proofs.Config.Faults
import StreamDispatch.Proofs.Config.Resolved
import StreamDispatch.Proofs.Record.Metadata
import StreamDispatch.Proofs.Text.Utf8
import StreamDispatch.Proofs.Record.Decoders
import StreamDispatch.Proofs.Registration.Built
import StreamDispatch.Proofs.Session.Consistent
import StreamDispatch.Proofs.Worker.Failing
import StreamDispatch.Proofs.Delivery.Rebalanced
import StreamDispatch.Proofs.Delivery.CommitLog
