import Kolyan.Value
import Kolyan.Lib.Checks
import Kolyan.Lib.Search
import Kolyan.Lib.Acyclic
import Kolyan.Facts.Journal
import Kolyan.Facts.Contract
import Kolyan.Tasks.Types
import Kolyan.Tasks.Encoding
import Kolyan.Tasks.Validation
import Kolyan.Tasks.Goals
import Kolyan.Tasks.Topology
import Kolyan.Tasks.Attempts
import Kolyan.Tasks.Reducer
import Kolyan.Tasks.WaitsFor
import Kolyan.Tasks.Input
import Kolyan.Tasks.Coordinator
import Kolyan.Tasks.Growth
import Kolyan.Tasks.Refinement
import Kolyan.Tasks.Concurrency
import Kolyan.Ledger.Store
import Kolyan.Lib.Threads
import Kolyan.Ledger.Port
import Kolyan.Execution.Coordinator
import Kolyan.Execution.Admission
import Kolyan.Policy.Prepared
import Kolyan.Policy.Engine
import Kolyan.Turn.Types
import Kolyan.Turn.Checkpoint
import Kolyan.Turn.Valid
import Kolyan.Facts.Integrity
import Kolyan.Lib.OrderedMaps
import Kolyan.Tasks.Effects
import Kolyan.Tasks.InStep
import Kolyan.Tasks.Progress
import Kolyan.Tasks.Retry
import Kolyan.Tasks.Results
import Kolyan.Tasks.Feedback
import Kolyan.Tasks.Finality
import Kolyan.Tasks.Success
import Kolyan.Tasks.Accounting
import Kolyan.Tasks.Forest
import Kolyan.Driver.Admission
import Kolyan.Driver.Attempts
import Kolyan.Driver.Lifecycle
import Kolyan.Driver.Runs
import Kolyan.Driver.Effects
import Kolyan.Execution.Refusals
import Kolyan.Facts.Retries
import Kolyan.Ledger.Adapters
import Kolyan.Ledger.Agreement
import Kolyan.Ledger.Claims
import Kolyan.Ledger.Leases
import Kolyan.Sessions.Store
import Kolyan.Sessions.History
import Kolyan.Instances.Registry
import Kolyan.Instances.Reservations
import Kolyan.Runtime.Execution
import Kolyan.Runtime.Effects
import Kolyan.Agent.Delegation
import Kolyan.Agent.Verification
import Kolyan.Artifacts.Store
import Kolyan.Artifacts.Programs
import Kolyan.Artifacts.Permanence
import Kolyan.Requests.Planner
import Kolyan.Requests.Plans
import Kolyan.Requests.Context
import Kolyan.Requests.History
import Kolyan.TaskDriver.Soundness
import Kolyan.Runtime.Dispositions
import Kolyan.Runtime.Stability
import Kolyan.Tools.Sharing
import Kolyan.Goals.Judged
import Kolyan.Hooks.Once
import Kolyan.Policy.Schedule
import Kolyan.Policy.Grants
import Kolyan.Policy.Progress
import Kolyan.Policy.Canonical
import Kolyan.Policy.Identity
import Kolyan.Turn.Deadline
import Kolyan.Lib.Outcomes
import Kolyan.Turn.Pending
import Kolyan.Turn.Passing
import Kolyan.Turn.Building
import Kolyan.Turn.Settling
import Kolyan.Turn.Refreshing
import Kolyan.Turn.Course
import Kolyan.Driver.Receipts
import Kolyan.Driver.Hydration
import Kolyan.Lib.Cuts
import Kolyan.Driver.Reconciliation
import Kolyan.Bytes
import Kolyan.Http.Opening
import Kolyan.Lib.Feeding
import Kolyan.Lib.Streams
import Kolyan.Lib.Walks
import Kolyan.Protocol.Reference
import Kolyan.Step.Completion
import Kolyan.Tasks.Causes
import Kolyan.Approvals.Apart
import Kolyan.Lib.Utf8
import Kolyan.Printing
import Kolyan.Tools.Disk
import Kolyan.Tools.Edits
import Kolyan.Tools.Envelopes
import Kolyan.Tools.FileEnvelopes
import Kolyan.Tools.Isolated
import Kolyan.Tools.Definite
import Kolyan.PrivateContext.Ownership
import Kolyan.Sandbox.Merging
import Kolyan.Agent.Advertised
import Kolyan.Responses.Faithful
