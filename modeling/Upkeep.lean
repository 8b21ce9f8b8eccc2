import Upkeep.Assoc
import Upkeep.Ddl.Retry
import Upkeep.Ddl.Timing
import Upkeep.Duration
import Upkeep.Error
import Upkeep.Event
import Upkeep.Job.Basic
import Upkeep.Lease.Guard
import Upkeep.Lease.Store
import Upkeep.Metrics
import Upkeep.Partition.Basic
import Upkeep.Partition.Catalog
import Upkeep.Partition.Condition
import Upkeep.Partition.SlidingList
import Upkeep.Partition.Strategy
import Upkeep.Partition.Sync
import Upkeep.Reindex.Action
import Upkeep.Reindex.Coordinator
import Upkeep.Reindex.Directory
import Upkeep.Reindex.Encoding
import Upkeep.Reindex.History
import Upkeep.Reindex.Index
import Upkeep.Reindex.Notifier
import Upkeep.Reindex.Selection
import Upkeep.Service
import Upkeep.Settings
import Upkeep.Simulation.Part
import Upkeep.Simulation.Scene
import Upkeep.Simulation.Script
import Upkeep.Simulation.Solo
import Upkeep.Simulation.Stage
import Upkeep.Simulation.World
import Upkeep.Sql.Change
import Upkeep.Sql.Failure
import Upkeep.Sql.Identifier
import Upkeep.Sql.Statement
import Upkeep.Text.Blank
import Upkeep.Text.Hex
import Upkeep.Text.Numeral
import Upkeep.Text.Phrase
import Upkeep.Text.Printable
import Upkeep.Text.Quoted
import Upkeep.Text.Utf8
import Upkeep.Uuid
import Upkeep.Proofs.Crowd.Basic
import Upkeep.Proofs.Crowd.Punctual
import Upkeep.Proofs.Ddl.Course
import Upkeep.Proofs.Ddl.Executions
import Upkeep.Proofs.Ddl.Retry
import Upkeep.Proofs.Ddl.Schedule
import Upkeep.Proofs.Ddl.Timeout
import Upkeep.Proofs.Duration
import Upkeep.Proofs.Job.Diary
import Upkeep.Proofs.Job.Path
import Upkeep.Proofs.Job.Rule
import Upkeep.Proofs.Job.Transcript
import Upkeep.Proofs.Lease.Alone
import Upkeep.Proofs.Lease.Eviction
import Upkeep.Proofs.Lease.Exclusion
import Upkeep.Proofs.Lease.Exits
import Upkeep.Proofs.Lease.Outstanding
import Upkeep.Proofs.Lease.Remains
import Upkeep.Proofs.Lease.Return
import Upkeep.Proofs.Lease.Rule
import Upkeep.Proofs.Lease.Span
import Upkeep.Proofs.Lease.Store
import Upkeep.Proofs.Lease.Succession
import Upkeep.Proofs.Lease.Work
import Upkeep.Proofs.Partition.Accounts
import Upkeep.Proofs.Partition.Bound
import Upkeep.Proofs.Partition.Changes
import Upkeep.Proofs.Partition.Commute
import Upkeep.Proofs.Partition.Convergence
import Upkeep.Proofs.Partition.Course
import Upkeep.Proofs.Partition.Database
import Upkeep.Proofs.Partition.Decisions
import Upkeep.Proofs.Partition.Default
import Upkeep.Proofs.Partition.InOrder
import Upkeep.Proofs.Partition.Ledger
import Upkeep.Proofs.Partition.Legible
import Upkeep.Proofs.Partition.Lifetime
import Upkeep.Proofs.Partition.Locality
import Upkeep.Proofs.Partition.Naming
import Upkeep.Proofs.Partition.Order
import Upkeep.Proofs.Partition.Outcome
import Upkeep.Proofs.Partition.Overlap
import Upkeep.Proofs.Partition.Pace
import Upkeep.Proofs.Partition.Parts
import Upkeep.Proofs.Partition.Plan
import Upkeep.Proofs.Partition.Recovery
import Upkeep.Proofs.Partition.Repair
import Upkeep.Proofs.Partition.Replay
import Upkeep.Proofs.Partition.Report
import Upkeep.Proofs.Partition.Retirement
import Upkeep.Proofs.Partition.RoundTrip
import Upkeep.Proofs.Partition.Sequence
import Upkeep.Proofs.Partition.Serial
import Upkeep.Proofs.Partition.Statements
import Upkeep.Proofs.Partition.Twin
import Upkeep.Proofs.Reindex.Apart
import Upkeep.Proofs.Reindex.Attempt
import Upkeep.Proofs.Reindex.Balance
import Upkeep.Proofs.Reindex.Choice
import Upkeep.Proofs.Reindex.Cleanup
import Upkeep.Proofs.Reindex.Conduct
import Upkeep.Proofs.Reindex.Crash
import Upkeep.Proofs.Reindex.Directory
import Upkeep.Proofs.Reindex.Encoding
import Upkeep.Proofs.Reindex.Identity
import Upkeep.Proofs.Reindex.Leftover
import Upkeep.Proofs.Reindex.Rebuilds
import Upkeep.Proofs.Reindex.Recent
import Upkeep.Proofs.Reindex.Record
import Upkeep.Proofs.Reindex.Removal
import Upkeep.Proofs.Reindex.Series
import Upkeep.Proofs.Reindex.Spacing
import Upkeep.Proofs.Reindex.Stem
import Upkeep.Proofs.Reindex.Stores
import Upkeep.Proofs.Reindex.Team
import Upkeep.Proofs.Reindex.Window
import Upkeep.Proofs.Simulation.Counts
import Upkeep.Proofs.Simulation.Database
import Upkeep.Proofs.Simulation.Frame
import Upkeep.Proofs.Simulation.Steps
import Upkeep.Proofs.Sql.Quoting
import Upkeep.Proofs.Sql.Reading
import Upkeep.Proofs.Stability
import Upkeep.Proofs.Text.Numeral
import Upkeep.Proofs.Text.Phrase
import Upkeep.Proofs.Uuid
