import Chronicle.Activity.Behaviour
import Chronicle.Activity.Context
import Chronicle.Activity.Registry
import Chronicle.Cron.Parser
import Chronicle.Cron.Schedule
import Chronicle.Engine.Basic
import Chronicle.Engine.Client
import Chronicle.Engine.Decision
import Chronicle.Engine.Ledger
import Chronicle.Engine.Outcome
import Chronicle.Engine.Program
import Chronicle.Engine.ResultWait
import Chronicle.Engine.Revision
import Chronicle.Engine.TimerService
import Chronicle.ErrorRecord
import Chronicle.Json.Basic
import Chronicle.Json.Lenient
import Chronicle.Json.Reader
import Chronicle.Json.Record
import Chronicle.Json.Writer
import Chronicle.Number.Binary64
import Chronicle.Number.Numeral
import Chronicle.Number.Shortest
import Chronicle.Replay.Engine
import Chronicle.Replay.State
import Chronicle.Samples.Activities
import Chronicle.Samples.Catalogue
import Chronicle.Samples.Script
import Chronicle.Samples.Workflows
import Chronicle.Simulation.Action
import Chronicle.Simulation.Format.Answers
import Chronicle.Simulation.Format.Fields
import Chronicle.Simulation.Format.Scenario
import Chronicle.Simulation.Format.Steps
import Chronicle.Simulation.Roster
import Chronicle.Simulation.Scenario
import Chronicle.Simulation.Session
import Chronicle.Simulation.Shell
import Chronicle.Simulation.Watch
import Chronicle.Store.Basic
import Chronicle.Store.Commit
import Chronicle.Store.RunTable
import Chronicle.Store.Task
import Chronicle.Store.TaskQueue
import Chronicle.Store.Timer
import Chronicle.Store.TimerQueue
import Chronicle.Text.Blank
import Chronicle.Text.CodeRange
import Chronicle.Text.Decimal
import Chronicle.Text.Digest
import Chronicle.Text.Extending
import Chronicle.Text.Quoted
import Chronicle.Text.Unprintable
import Chronicle.Time.Calendar
import Chronicle.Time.Instant
import Chronicle.Time.Moment
import Chronicle.Time.Span
import Chronicle.Time.Timestamp
import Chronicle.Uuid
import Chronicle.Worker.Attempt
import Chronicle.Worker.Basic
import Chronicle.Worker.Config
import Chronicle.Worker.Poller
import Chronicle.Worker.Shutdown
import Chronicle.Worker.TaskLoop
import Chronicle.Workflow.Command
import Chronicle.Workflow.Definition
import Chronicle.Workflow.Event
import Chronicle.Workflow.EventRecord
import Chronicle.Workflow.Failure
import Chronicle.Workflow.FanIn
import Chronicle.Workflow.Options
import Chronicle.Workflow.Registry
import Chronicle.Workflow.Retry
import Chronicle.Workflow.Run
import Chronicle.Workflow.RunRef
import Chronicle.Proofs.Replay.Emission
import Chronicle.Proofs.Replay.Guard
import Chronicle.Proofs.Replay.Acceptance
import Chronicle.Proofs.Program.Answers
import Chronicle.Proofs.Program.Knowing
import Chronicle.Proofs.Program.Scene
import Chronicle.Proofs.Engine.Results
import Chronicle.Proofs.Engine.Revising
import Chronicle.Proofs.Engine.Drafts
import Chronicle.Proofs.Engine.Batches
import Chronicle.Proofs.Engine.Notices
import Chronicle.Proofs.Engine.Advancing
import Chronicle.Proofs.Engine.Writers
import Chronicle.Proofs.Engine.Obeying
import Chronicle.Proofs.Engine.Operations
import Chronicle.Proofs.Store.Histories
import Chronicle.Proofs.Engine.Heirs
import Chronicle.Proofs.Engine.HistoryLog
import Chronicle.Proofs.Replay.Agreement
import Chronicle.Proofs.Engine.Agreement
import Chronicle.Proofs.Engine.Redelivery
import Chronicle.Proofs.Engine.Ledgers
import Chronicle.Proofs.Engine.Updates
import Chronicle.Proofs.Store.Tasks
import Chronicle.Proofs.Store.Applying
import Chronicle.Proofs.Engine.Provisions
import Chronicle.Proofs.Engine.Moves
import Chronicle.Proofs.Engine.Upkeep
import Chronicle.Proofs.Program.Playing
import Chronicle.Proofs.Engine.Playing
import Chronicle.Proofs.Engine.Outside
import Chronicle.Proofs.Engine.Relief
import Chronicle.Proofs.Worker.Playing
import Chronicle.Proofs.Program.Company
import Chronicle.Proofs.Worker.Roles
import Chronicle.Proofs.Engine.Attempts
import Chronicle.Proofs.Engine.Supplies
import Chronicle.Proofs.Engine.WakeUps
import Chronicle.Proofs.Store.Timers
import Chronicle.Proofs.Engine.Awaiting
import Chronicle.Proofs.Engine.Balancing
import Chronicle.Proofs.Engine.Mirroring
import Chronicle.Proofs.Engine.Firing
import Chronicle.Proofs.Worker.Punctuality
import Chronicle.Proofs.Program.Heeding
import Chronicle.Proofs.Engine.Heeding
import Chronicle.Proofs.Engine.Offspring
import Chronicle.Proofs.Store.Lineages
import Chronicle.Proofs.Engine.Books
import Chronicle.Proofs.Store.Chains
import Chronicle.Proofs.Engine.Succession
import Chronicle.Proofs.Store.Tidings
import Chronicle.Proofs.Engine.Bookkeeping
import Chronicle.Proofs.Engine.Children
import Chronicle.Proofs.Engine.Reports
import Chronicle.Proofs.Engine.Farewells
import Chronicle.Proofs.Engine.Effects
import Chronicle.Proofs.Replay.Waiting
import Chronicle.Proofs.Replay.Identifiers
import Chronicle.Proofs.Replay.Settling
import Chronicle.Proofs.Replay.Recalling
import Chronicle.Proofs.Engine.Deadlines
import Chronicle.Proofs.Worker.Deadlines
import Chronicle.Proofs.Store.Deeds
import Chronicle.Proofs.Store.Logs
import Chronicle.Proofs.Store.Leases
import Chronicle.Proofs.Time.Calendar
import Chronicle.Proofs.Cron.Search
import Chronicle.Proofs.Cron.Parsing
import Chronicle.Proofs.Cron.Grammar
import Chronicle.Proofs.Engine.Undertakings
import Chronicle.Proofs.Engine.Endings
import Chronicle.Proofs.Engine.Cancellations
import Chronicle.Proofs.Worker.Endings
import Chronicle.Proofs.Text.Identifiers
import Chronicle.Proofs.Text.Words
import Chronicle.Proofs.Time.Timestamps
import Chronicle.Proofs.Json.Records
import Chronicle.Proofs.Json.Formats
import Chronicle.Proofs.Workflow.Records
import Chronicle.Proofs.Workflow.EventRecords
import Chronicle.Proofs.Store.Records
import Chronicle.Proofs.Store.Persistence
import Chronicle.Proofs.Time.Instants
import Chronicle.Proofs.Store.DueTimers
import Chronicle.Proofs.Engine.FiredTimers
import Chronicle.Proofs.Engine.Draining
import Chronicle.Proofs.Engine.Untangling
import Chronicle.Proofs.Engine.Sweeping
import Chronicle.Proofs.Worker.Ticking
import Chronicle.Proofs.Worker.Batching
import Chronicle.Proofs.Store.TimerTable
import Chronicle.Proofs.Program.Bystanders
import Chronicle.Proofs.Engine.Uncontested
import Chronicle.Proofs.Store.Slumber
import Chronicle.Proofs.Program.Avoiding
import Chronicle.Proofs.Engine.Avoiding
import Chronicle.Proofs.Worker.Avoiding
import Chronicle.Proofs.Worker.Slumber
import Chronicle.Proofs.Time.Elapsing
import Chronicle.Proofs.Store.Availability
import Chronicle.Proofs.Program.Timeliness
import Chronicle.Proofs.Engine.Timeliness
import Chronicle.Proofs.Worker.Timeliness
import Chronicle.Proofs.Program.TimerOrigins
import Chronicle.Proofs.Program.Courses
import Chronicle.Proofs.Worker.Alarms
import Chronicle.Proofs.Workflow.Joins
import Chronicle.Proofs.Engine.Marking
import Chronicle.Proofs.Replay.Calls
import Chronicle.Proofs.Program.Dialogues
import Chronicle.Proofs.Worker.Containment
import Chronicle.Proofs.Worker.WindingDown
