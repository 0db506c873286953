import NodeCoverage.Text.Blank
import NodeCoverage.Text.Split
import NodeCoverage.Text.Integer
import NodeCoverage.Text.Lowercase
import NodeCoverage.Text.Quoted
import NodeCoverage.Json.Printer
import NodeCoverage.Json.Parser
import NodeCoverage.Time.DurationText
import NodeCoverage.Time.Calendar
import NodeCoverage.Process.Execution
import NodeCoverage.Process.Retry
import NodeCoverage.Cluster.Object.Json
import NodeCoverage.Cluster.Api
import NodeCoverage.Check.Labels
import NodeCoverage.Check.Coverage
import NodeCoverage.Report.Basic
import NodeCoverage.Check.Blueprint
import NodeCoverage.Check.Orphan
import NodeCoverage.Check.Exit
import NodeCoverage.Process.Pause
import NodeCoverage.Check.Verification
import NodeCoverage.Check.Deployment
import NodeCoverage.Check.Sweep
import NodeCoverage.Check.Teardown
import NodeCoverage.Check.Discovery
import NodeCoverage.Check.Failure
import NodeCoverage.Check.Worker
import NodeCoverage.Check.Lifecycle
import NodeCoverage.Cluster.Selector
import NodeCoverage.Simulation.Store
import NodeCoverage.Simulation.Script
import NodeCoverage.Simulation.Session
import NodeCoverage.Simulation.Attempts
import NodeCoverage.CommandLine.Usage
import NodeCoverage.CommandLine.Setting
import NodeCoverage.Check.Arguments
import NodeCoverage.Main
import NodeCoverage.Cluster.Rest
import NodeCoverage.Report.Delivery
import NodeCoverage.Proofs.Cluster.Made
import NodeCoverage.Proofs.Cluster.Punctual
import NodeCoverage.Proofs.Process.Abandon
import NodeCoverage.Proofs.Process.Attempts
import NodeCoverage.Proofs.Process.Beside
import NodeCoverage.Proofs.Process.Capped
import NodeCoverage.Proofs.Process.Finishes
import NodeCoverage.Proofs.Process.Heeds
import NodeCoverage.Proofs.Process.Meets
import NodeCoverage.Proofs.Process.Rest
import NodeCoverage.Proofs.Process.Retry
import NodeCoverage.Proofs.Process.Trace
import NodeCoverage.Proofs.Check.Acceptance
import NodeCoverage.Proofs.Check.Agreement
import NodeCoverage.Proofs.Check.Bookkeeping
import NodeCoverage.Proofs.Check.Cadence
import NodeCoverage.Proofs.Check.Clearing
import NodeCoverage.Proofs.Check.Confirmation
import NodeCoverage.Proofs.Check.Course
import NodeCoverage.Proofs.Check.Coverage
import NodeCoverage.Proofs.Check.Discipline
import NodeCoverage.Proofs.Check.Exclusion
import NodeCoverage.Proofs.Check.Footprint
import NodeCoverage.Proofs.Check.Forcing
import NodeCoverage.Proofs.Check.Foreign
import NodeCoverage.Proofs.Check.Grammar
import NodeCoverage.Proofs.Check.Idempotence
import NodeCoverage.Proofs.Check.Labels
import NodeCoverage.Proofs.Check.Ledger
import NodeCoverage.Proofs.Check.Leftovers
import NodeCoverage.Proofs.Check.Messages
import NodeCoverage.Proofs.Check.Missing
import NodeCoverage.Proofs.Check.Naming
import NodeCoverage.Proofs.Check.Outcome
import NodeCoverage.Proofs.Check.Overlap
import NodeCoverage.Proofs.Check.Overtime
import NodeCoverage.Proofs.Check.Pairs
import NodeCoverage.Proofs.Check.Progress
import NodeCoverage.Proofs.Check.Promptness
import NodeCoverage.Proofs.Check.Punctuality
import NodeCoverage.Proofs.Check.Reporting
import NodeCoverage.Proofs.Check.Samples
import NodeCoverage.Proofs.Check.Shortfall
import NodeCoverage.Proofs.Check.Success
import NodeCoverage.Proofs.Check.Survivors
import NodeCoverage.Proofs.Check.Sweeping
import NodeCoverage.Proofs.Check.Timely
import NodeCoverage.Proofs.Check.Validity
import NodeCoverage.Proofs.Check.Window
import NodeCoverage.Proofs.Report.Delivery
