import Upkeep.Ddl.Retry
import Upkeep.Lease.Guard
import Upkeep.Partition.Strategy
import Upkeep.Settings

/-!
# Syncing a table with its strategy

One run of partition upkeep: the missing partitions are created, the strategy
does what is left to do, and then the partitions that are not needed any more
are detached.  A run holds the table's lease, so that two workers never change
the partitions of one table at the same time.

## Main Definitions

* `Manager` — a strategy with what it takes to carry it out.
* `Manager.sync` — one run; nothing, if another worker is at it.
* `SyncReport` — what a run has changed.

## Design Notes

A run that was stopped after creating a partition is made up for by a later
one: if nothing is missing, the strategy is asked whether something is left to
do.  What to detach is decided after that, because a new active partition may
make an old one superfluous.
-/

namespace Upkeep.Partition

/-- What a run has changed, each list in the order of the changes. -/
structure SyncReport where
  created : List Partition := []
  detached : List Partition := []
  deriving DecidableEq, Repr

/-- Whether a run has changed nothing. -/
def SyncReport.isEmpty (report : SyncReport) : Bool :=
  report.created.isEmpty && report.detached.isEmpty

/-- A strategy with what it takes to carry it out. -/
structure Manager where
  strategy : Strategy
  settings : Settings
  session : Session
  account : Account

namespace Manager

/-! ### Events -/

/-- Another worker is syncing the table. -/
def skippedEvent (table key : String) : Event :=
  ⟨.info, "Partition sync already running elsewhere, skipping",
    [("table", table), ("lease_key", key)]⟩

/-- Something was left to do by an earlier run. -/
def lagsEvent (table : String) : Event :=
  ⟨.warn, "Partitioning column default lags the active partition, moving it",
    [("table", table)]⟩

/-- What an event says about a partition. -/
def fieldsOf (partition : Partition) : List (String × String) :=
  [("table", partition.table), ("partition", partition.name),
    ("value", String.ofList (Text.ofInt64 partition.value))]

/-- A partition was created. -/
def createdEvent (partition : Partition) : Event :=
  ⟨.info, "Created partition", fieldsOf partition⟩

/-- A partition was detached. -/
def detachedEvent (partition : Partition) : Event :=
  ⟨.info, "Detached partition", fieldsOf partition⟩

/-! ### A run -/

/-- The key of the lease that a run holds. -/
def leaseKey (manager : Manager) : String :=
  manager.settings.keyspace ++ "/" ++ manager.strategy.table

/-- What the statements of a run are executed with. -/
def retrier (manager : Manager) : Ddl.Retrier := ⟨manager.session, manager.account⟩

/-- Executes a statement of a run. -/
def execute (manager : Manager) (statement : Sql.Statement) : Task Unit := do
  let _ ← manager.retrier.run statement.text manager.settings.timing true

/-- Creates partitions one after the other. -/
def create (manager : Manager) : List Partition → Task Unit
  | [] => return ()
  | partition :: rest => do
      manager.execute partition.createStatement
      Service.count manager.account (.partitionsCreated partition.table)
      Service.log (createdEvent partition)
      manager.create rest

/-- Detaches partitions one after the other. -/
def detach (manager : Manager) : List Partition → Task Unit
  | [] => return ()
  | partition :: rest => do
      manager.execute partition.detachStatement
      Service.count manager.account (.partitionsDetached partition.table)
      Service.log (detachedEvent partition)
      manager.detach rest

/-- Creates the missing partitions, or makes up for what an earlier run has left
to do. -/
def extend (manager : Manager) (missing : List Partition) : Task Unit := do
  if missing.isEmpty then
    if ← manager.strategy.lags then
      Service.log (lagsEvent manager.strategy.table)
      manager.strategy.afterAdding
  else
    manager.create missing
    manager.strategy.afterAdding

/-- A run under the lease. -/
def syncLocked (manager : Manager) : Task SyncReport := do
  let missing ← manager.strategy.missing
  manager.extend missing
  -- The catalog is read again here: by now the active partition may be another.
  let extra ← manager.strategy.extra
  manager.detach extra
  return { created := missing, detached := extra }

/-- A run, unless another worker is at it. -/
def sync (manager : Manager) : Task (Option SyncReport) := do
  match ← Lease.holding manager.leaseKey manager.settings.lease manager.syncLocked.toJob with
  | some result => some <$> Service.attempt (return result)
  | none =>
      Service.count manager.account .leaseSkipped
      Service.log (skippedEvent manager.strategy.table manager.leaseKey)
      return none

end Manager

end Upkeep.Partition
