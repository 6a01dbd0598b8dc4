import CallGuard.Config.Basic
import CallGuard.Config.Reader
import CallGuard.Config.Writer
import CallGuard.Failure.Basic
import CallGuard.Failure.Kinds
import CallGuard.Failure.Predicate
import CallGuard.Fallback.Rescue
import CallGuard.Guard.Error
import CallGuard.Guard.Expectation
import CallGuard.Guard.Site
import CallGuard.Json.Token
import CallGuard.Json.Value
import CallGuard.Naming.Table
import CallGuard.Number.Binary64
import CallGuard.Number.Power
import CallGuard.Number.Shortest
import CallGuard.Policy.Error
import CallGuard.Policy.Fallback
import CallGuard.Policy.Jitter
import CallGuard.Policy.Retry
import CallGuard.Policy.Timeout
import CallGuard.Proofs.Number.Rounding
import CallGuard.Proofs.Policy.Wait
import CallGuard.Proofs.Retry.Decision
import CallGuard.Proofs.Retry.Reference
import CallGuard.Proofs.Retry.Scripted
import CallGuard.Proofs.Run.Waiting
import CallGuard.Proofs.Stream.Account
import CallGuard.Proofs.Stream.Reading
import CallGuard.Registry.Basic
import CallGuard.Registry.Blueprint
import CallGuard.Retry.Error
import CallGuard.Retry.Loop
import CallGuard.Retry.Progress
import CallGuard.Retry.Subscription
import CallGuard.Run.Act
import CallGuard.Run.Event
import CallGuard.Run.Poll
import CallGuard.Scenario.Basic
import CallGuard.Scenario.Reading
import CallGuard.Scenario.Run
import CallGuard.Text.Outline
import CallGuard.Text.Quoted
import CallGuard.Text.Unmarked
import CallGuard.Time.Clock
import CallGuard.Time.Duration
import CallGuard.Timeout.Error
import CallGuard.Timeout.Gap
import CallGuard.Timeout.Limit
import CallGuard.Work.Course
import CallGuard.Work.Feed
import CallGuard.Work.Flaky
import CallGuard.Work.Script
import CallGuard.Proofs.Stream.Delivery
import CallGuard.Proofs.Stream.Replay
import CallGuard.Proofs.Timeout.Deadline
import CallGuard.Proofs.Work.Latency
import CallGuard.Proofs.Guard.Deadline
import CallGuard.Proofs.Guard.Stream
import CallGuard.Proofs.Naming.Lookup
import CallGuard.Proofs.Registry.Collect
import CallGuard.Proofs.Config.Described
import CallGuard.Proofs.Registry.Build
import CallGuard.Proofs.Registry.Order
import CallGuard.Proofs.Timeout.Timed
import CallGuard.Proofs.Stream.Visits
import CallGuard.Proofs.Timeout.Watching
import CallGuard.Proofs.Run.Deaf
import CallGuard.Proofs.Guard.Single
import CallGuard.Proofs.Guard.Instant
import CallGuard.Proofs.Guard.Patience
import CallGuard.Proofs.Guard.Shapes
import CallGuard.Proofs.Failure.Wrapping
import CallGuard.Proofs.Timeout.Prompt
import CallGuard.Proofs.Run.Whole
import CallGuard.Proofs.Retry.Legs
import CallGuard.Proofs.Retry.Accounting
import CallGuard.Proofs.Stream.Timesheet
import CallGuard.Proofs.Guard.Accounting
import CallGuard.Proofs.Number.Interval
import CallGuard.Proofs.Number.Decimal
import CallGuard.Proofs.Number.Shortest
import CallGuard.Proofs.Number.Whole
import CallGuard.Proofs.Number.Accuracy
import CallGuard.Proofs.Json.Numbers
import CallGuard.Proofs.Json.Scanned
import CallGuard.Proofs.Config.Written
import CallGuard.Proofs.Config.Finite
import CallGuard.Proofs.Config.Reread
import CallGuard.Proofs.Number.Growth
import CallGuard.Proofs.Policy.Backoff
import CallGuard.Proofs.Registry.Installation
import CallGuard.Proofs.Retry.Tale
import CallGuard.Proofs.Stream.Tale
import CallGuard.Proofs.Guard.Events
import CallGuard.Proofs.Policy.Exactness
import CallGuard.Proofs.Policy.Band
import CallGuard.Proofs.Stream.Drift
import CallGuard.Proofs.Stream.Position
import CallGuard.Proofs.Retry.Notes
import CallGuard.Proofs.Config.Exported
import CallGuard.Proofs.Timeout.Apart
import CallGuard.Proofs.Run.Counting
import CallGuard.Proofs.Fallback.Relay
import CallGuard.Proofs.Fallback.Outcome
import CallGuard.Proofs.Guard.Laziness
import CallGuard.Proofs.Guard.Flaky
