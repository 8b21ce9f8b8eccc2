import Upkeep.Event
import Upkeep.Job.Basic
import Upkeep.Lease.Store
import Upkeep.Metrics
import Upkeep.Partition.Basic
import Upkeep.Reindex.Action

/-!
# What upkeep asks for

The requests of every job of upkeep.  Whatever a job learns and whatever it
does, it does through one of these, so a job's requests and their answers are
its whole behaviour.

## Main Definitions

* `Service.Request`, `Service.Answer` — the requests and their answers.
* `Service` — the interface of both.
* `Task` — a job that may fail with an error.
* `Service.log`, `Service.count`, … — one request each.

## Design Notes

A request names the resource that it goes to — the database session, the
metrics account, the worker whose rebuilder and notifier are meant — and several
jobs may name the same one.  A rebuild takes time, so it is two requests: the
first begins it and says how long it will take, the second has its result.
-/

namespace Upkeep

/-- A database session. -/
structure Session where
  number : Nat
  deriving DecidableEq, Repr

/-- A set of counters. -/
structure Account where
  number : Nat
  deriving DecidableEq, Repr

/-- A worker with a rebuilder and a notifier of its own. -/
structure Worker where
  number : Nat
  deriving DecidableEq, Repr

namespace Service

/-- What a job of upkeep may ask for. -/
inductive Request where
  /-- Obtain a lease, for a limited time, if nobody has it. -/
  | obtainLease (key : String) (ttl : Duration)
  /-- Give a lease back. -/
  | releaseLease (key : String) (token : Lease.Token)
  /-- Whether work can still be left to somebody else. -/
  | canDelegate
  /-- Execute a statement. -/
  | execute (session : Session) (sql : String)
  /-- List the partitions of a table. -/
  | listPartitions (table : String)
  /-- Read the default expression of a column. -/
  | readDefault (table column : String)
  /-- Ask the application whether a partition has had its time as the active one. -/
  | isFull (value : Int64)
  /-- Ask the application whether a partition is no longer needed. -/
  | isRetired (value : Int64)
  /-- Ask whoever plans a table's partitions which ones are missing. -/
  | plannedMissing
  /-- Ask whoever plans a table's partitions which ones are not needed. -/
  | plannedExtra
  /-- Tell whoever plans a table's partitions that some were added. -/
  | plannedAdded
  /-- Draw an id that no action has. -/
  | drawId
  /-- Read the wall clock, in milliseconds. -/
  | readClock
  /-- Keep the record of a new action. -/
  | createAction (action : Action)
  /-- Keep the record of an action in the place of the former one. -/
  | updateAction (action : Action)
  /-- List the actions on an index, the oldest first. -/
  | listActions (database index : String)
  /-- Tell that an attempt starts. -/
  | notifyStart (worker : Worker) (action : Action)
  /-- Tell that an attempt has ended. -/
  | notifyEnd (worker : Worker) (action : Action)
  /-- Begin to rebuild an index, and learn how long to sleep until it is done. -/
  | beginRebuild (worker : Worker) (index : Index)
  /-- Learn how the rebuild of an index went. -/
  | endRebuild (worker : Worker) (index : Index)
  /-- Read the size of an index on disk. -/
  | readSize (worker : Worker) (index : Index)
  /-- Count something. -/
  | count (account : Account) (meter : Meter) (n : UInt64)
  /-- Write to the log. -/
  | log (event : Event)
  deriving DecidableEq, Repr

/-- The type of the answer to each request. -/
@[reducible] def Answer : Request → Type
  | .obtainLease _ _ => Except Error (Option Lease.Token)
  | .releaseLease _ _ => Except Error Bool
  | .canDelegate => Bool
  | .execute _ _ => Except Sql.Failure Unit
  | .listPartitions _ => Except Error (List Listing)
  | .readDefault _ _ => Except Error (Option String)
  | .isFull _ => Bool
  | .isRetired _ => Bool
  | .plannedMissing => Except Error (List Partition)
  | .plannedExtra => Except Error (List Partition)
  | .plannedAdded => Except Error Unit
  | .drawId => Uuid
  | .readClock => UInt64
  | .createAction _ => Except Error Unit
  | .updateAction _ => Except Error Unit
  | .listActions _ _ => Except Error (List Action)
  | .notifyStart _ _ => Except Error Unit
  | .notifyEnd _ _ => Except Error Unit
  | .beginRebuild _ _ => Option Duration
  | .endRebuild _ _ => Except Error Unit
  | .readSize _ _ => Except Error UInt64
  | .count _ _ _ => Unit
  | .log _ => Unit

end Service

/-- The requests of upkeep and their answers. -/
abbrev Service : Interface := ⟨Service.Request, Service.Answer⟩

/-- A job of upkeep that may fail. -/
abbrev Task (α : Type) := ExceptT Error (Job Service) α

/-- The task as a job whose value tells success from failure. -/
abbrev Task.toJob {α : Type} (task : Task α) : Job Service (Except Error α) := ExceptT.run task

/-- The task that runs a job, whose value is no failure whatever it is. -/
def Task.ofJob {α : Type} (job : Job Service α) : Task α := ExceptT.lift job

namespace Service

/-- One request, and its answer as the value. -/
def ask (r : Request) : Job Service (Answer r) := Job.request (I := Service) r

/-- Sleeps. -/
def sleep (length : Duration) : Job Service Unit := Job.pause length

/-- Writes to the log. -/
def log (event : Event) : Job Service Unit := ask (.log event)

/-- Counts one of something. -/
def count (account : Account) (meter : Meter) : Job Service Unit := ask (.count account meter 1)

/-- A task of one job with a result. -/
def attempt {α : Type} (job : Job Service (Except Error α)) : Task α := ExceptT.mk job

end Service

end Upkeep
