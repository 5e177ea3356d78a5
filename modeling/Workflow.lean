import Workflow.Flow.Session
import Workflow.Json.Printer
import Workflow.Main
import Workflow.Proofs.Flow.SectionRules
import Workflow.Proofs.Flow.ActivationSafety
import Workflow.Proofs.Flow.Leases
import Workflow.Proofs.Flow.DriveLoops
import Workflow.Proofs.Flow.Writes
import Workflow.Proofs.Flow.Durability
import Workflow.Proofs.Flow.Lifecycle
import Workflow.Proofs.Flow.SharedStore
import Workflow.Proofs.Flow.CurrentStep
import Workflow.Proofs.Flow.Routing
import Workflow.Proofs.Flow.Stranding
import Workflow.Proofs.Flow.Building
import Workflow.Proofs.Flow.Launches
import Workflow.Proofs.Batch.Runs
import Workflow.Proofs.Batch.Roster
import Workflow.Proofs.Batch.EventProtocol
import Workflow.Proofs.Batch.Permits
import Workflow.Proofs.Batch.Completion
import Workflow.Proofs.Rollout.Deployment
import Workflow.Proofs.Worker.Course
import Workflow.Proofs.Worker.Submission
import Workflow.Proofs.Worker.PollNumbers
import Workflow.Proofs.Worker.Polling
import Workflow.Proofs.Worker.Termination
import Workflow.Proofs.Step.Reduction
import Workflow.Proofs.Step.FanOut
import Workflow.Proofs.Step.Targets
import Workflow.Proofs.Flow.FinalResult
import Workflow.Proofs.Flow.Deadline
import Workflow.Proofs.Json.Reading
import Workflow.Proofs.Identifiers
import Workflow.Proofs.Time.Dates
import Workflow.Proofs.Time.Instants
import Workflow.Proofs.Flow.Persistence
import Workflow.Proofs.Batch.Announcements
import Workflow.Proofs.Step.KeptResults
import Workflow.Proofs.Flow.Ledger
import Workflow.Proofs.Flow.Bookkeeping
import Workflow.Proofs.Flow.Agreement
import Workflow.Proofs.Flow.Calls
import Workflow.Proofs.Flow.Following
import Workflow.Proofs.Flow.Graph
import Workflow.Proofs.Flow.Isolation
import Workflow.Proofs.Worker.Yield
import Workflow.Proofs.Batch.Harvest
import Workflow.Proofs.Flow.Settling
import Workflow.Proofs.Flow.Undisturbed
import Workflow.Proofs.Flow.Standing
import Workflow.Proofs.Flow.Walking
import Workflow.Proofs.Flow.Awaiting
import Workflow.Proofs.Rollout.Outcomes
import Workflow.Proofs.Rollout.Ending
import Workflow.Proofs.Step.Severity
import Workflow.Proofs.Step.Listening
import Workflow.Proofs.Worker.Passing
import Workflow.Proofs.Worker.Truncation
import Workflow.Proofs.Worker.Shifting
import Workflow.Proofs.Batch.Spans
import Workflow.Proofs.Batch.Throttling
import Workflow.Proofs.Flow.Validation
import Workflow.Proofs.Number.Rounding
import Workflow.Proofs.Flow.Progress
import Workflow.Proofs.Flow.Retrying
import Workflow.Proofs.Supply
import Workflow.Proofs.Flow.History
import Workflow.Proofs.Batch.Expansion
import Workflow.Proofs.Flow.Exclusion
import Workflow.Proofs.Worker.Counters
import Workflow.Proofs.IdentifierOrder
