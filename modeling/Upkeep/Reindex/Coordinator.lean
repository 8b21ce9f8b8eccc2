import Upkeep.Ddl.Retry
import Upkeep.Lease.Guard
import Upkeep.Reindex.Notifier
import Upkeep.Reindex.Selection

/-!
# Coordinating rebuilds

Rebuilding an index is expensive, so among all workers at most one at a time
does it for each lease.  Every attempt leaves an action behind, from which later
runs learn that the index was rebuilt recently.  Before that, the leftovers of
interrupted rebuilds are dropped.

## Main Definitions

* `Coordinator` — a worker with what it takes to rebuild indexes.
* `Coordinator.perform` — one attempt.
* `Coordinator.drop`, `Coordinator.cleanup` — dropping one index, and dropping
  every leftover.
* `Coordinator.automatic` — leftovers first, then the indexes that are worth it.

## Design Notes

An attempt that has begun is seen through: neither a notification that does not
get through nor a size that cannot be read ends it, and a failed rebuild is
recorded and notified like any other before it is reported.  The order of errors
is that of importance: a failed rebuild hides a record that could not be kept.
-/

namespace Upkeep

/-- The result of an attempt. -/
inductive Performed where
  /-- The index was rebuilt, as the action says. -/
  | done (action : Action)
  /-- Another worker has the lease. -/
  | skipped
  deriving DecidableEq, Repr

/-- The result of dropping an index. -/
inductive Dropped where
  /-- The index does not exist any more. -/
  | dropped
  /-- Its lock was never free. -/
  | abandoned
  /-- Another worker has the lease. -/
  | skipped
  deriving DecidableEq, Repr

/-- The word for a result of dropping. -/
def Dropped.word : Dropped → String
  | dropped => "dropped"
  | abandoned => "abandoned"
  | skipped => "skipped"

/-- The identifiers of leftovers by what became of them. -/
structure CleanupReport where
  dropped : List String := []
  abandoned : List String := []
  skipped : List String := []
  deriving DecidableEq, Repr

/-- The report with one more leftover, to be named before the others. -/
def CleanupReport.prepend (identifier : String) (result : Dropped) (report : CleanupReport) :
    CleanupReport :=
  match result with
  | .dropped => { report with dropped := identifier :: report.dropped }
  | .abandoned => { report with abandoned := identifier :: report.abandoned }
  | .skipped => { report with skipped := identifier :: report.skipped }

/-- A worker with what it takes to rebuild indexes. -/
structure Coordinator where
  settings : Reindex.Settings
  worker : Worker
  session : Session
  account : Account
  notifier : Notifier
  deriving DecidableEq, Repr

namespace Coordinator

/-! ### Events -/

/-- Another worker rebuilds under the lease. -/
def skippedEvent (index : Index) (key : String) : Event :=
  ⟨.info, "Reindex already running elsewhere, skipping",
    [("index", index.display), ("lease_key", key)]⟩

/-- Nobody was told that an attempt starts. -/
def startNotFailedEvent (action : Action) (error : Error) : Event :=
  ⟨.warn, "Reindex start notification failed",
    [("action_id", action.id.toText), ("error", error.message)]⟩

/-- Nobody was told that an attempt has ended. -/
def endNotFailedEvent (action : Action) (error : Error) : Event :=
  ⟨.warn, "Reindex end notification failed",
    [("action_id", action.id.toText), ("error", error.message)]⟩

/-- A rebuild failed. -/
def rebuildFailedEvent (action : Action) (index : Index) (error : Error) : Event :=
  ⟨.error, "Index rebuild failed",
    [("action_id", action.id.toText), ("index", index.display), ("error", error.message)]⟩

/-- The size after a rebuild could not be read. -/
def sizeUnknownEvent (index : Index) (error : Error) : Event :=
  ⟨.warn, "Could not read index size after rebuild",
    [("index", index.display), ("error", error.message)]⟩

/-- The record of a failed rebuild could not be kept. -/
def failureNotKeptEvent (action : Action) (error : Error) : Event :=
  ⟨.error, "Failed to record reindex failure",
    [("action_id", action.id.toText), ("error", error.message)]⟩

/-- A drop was left to a later run because of a rebuild. -/
def dropSkippedEvent (index : Index) (key : String) : Event :=
  ⟨.info, "Index drop blocked by running reindex, skipping",
    [("index", index.display), ("lease_key", key)]⟩

/-- An index was dropped. -/
def droppedEvent (index : Index) (attempts : Nat) : Event :=
  ⟨.info, "Dropped index", [("index", index.display), ("attempts", toString attempts)]⟩

/-- The lock of an index to be dropped was never free. -/
def dropAbandonedEvent (index : Index) (attempts : Nat) : Event :=
  ⟨.warn, "Gave up dropping index after lock retries",
    [("index", index.display), ("attempts", toString attempts)]⟩

/-- The indexes to rebuild were chosen. -/
def selectedEvent (candidates maximum : Nat) : Event :=
  ⟨.info, "Selected indexes for rebuild",
    [("candidates", toString candidates), ("maximum", toString maximum)]⟩

/-! ### One attempt -/

/-- The key of the lease for work on an index. -/
def leaseKey (coordinator : Coordinator) (index : Index) : String :=
  match coordinator.settings.scope with
  | .perDatabase => coordinator.settings.keyspace ++ "/" ++ index.database
  | .perIndex =>
      coordinator.settings.keyspace ++ "/" ++ index.database ++ "/" ++ index.identifier

/-- What statements are executed with. -/
def retrier (coordinator : Coordinator) : Ddl.Retrier :=
  ⟨coordinator.session, coordinator.account⟩

/-- Rebuilds an index, which takes its time. -/
def rebuild (coordinator : Coordinator) (index : Index) : Job Service (Except Error Unit) := do
  if let some length ← Service.ask (.beginRebuild coordinator.worker index) then
    Service.sleep length
  Service.ask (.endRebuild coordinator.worker index)

/-- The size of an index after its rebuild, if it can be read. -/
def sizeAfter? (coordinator : Coordinator) (index : Index) : Job Service (Option UInt64) := do
  match ← Service.ask (.readSize coordinator.worker index) with
  | .ok size => return some size
  | .error error =>
      Service.log (sizeUnknownEvent index error)
      return none

/-- Tells that an attempt starts, as far as possible. -/
def announce (coordinator : Coordinator) (action : Action) : Job Service Unit := do
  if let .error error ← (coordinator.notifier.notifyStart action).toJob then
    Service.log (startNotFailedEvent action error)

/-- Tells that an attempt has ended, as far as possible. -/
def report (coordinator : Coordinator) (action : Action) : Job Service Unit := do
  if let .error error ← (coordinator.notifier.notifyEnd action).toJob then
    Service.log (endNotFailedEvent action error)

/-- The action after the rebuild has gone as it has. -/
def judge (action : Action) (index : Index) : Except Error Unit → Job Service Action
  | .ok () => return action
  | .error error => do
      Service.log (rebuildFailedEvent action index error)
      return action.fail error.message

/-- The verdict on an attempt whose end was announced. -/
def conclude (coordinator : Coordinator) (index : Index) (action : Action)
    (rebuilt updated : Except Error Unit) : Task Action :=
  match rebuilt, updated with
  | .error error, .error storeError => do
      Service.count coordinator.account .reindexFailed
      Service.log (failureNotKeptEvent action storeError)
      throw (.rebuildFailed index.identifier error)
  | .error error, .ok () => do
      Service.count coordinator.account .reindexFailed
      throw (.rebuildFailed index.identifier error)
  | .ok (), .error storeError => throw storeError
  | .ok (), .ok () => do
      Service.count coordinator.account .reindexFinished
      return action

/-- An attempt under the lease. -/
def performLocked (coordinator : Coordinator) (index : Index) : Task Action := do
  let started ← Service.ask .readClock
  let id ← Service.ask .drawId
  let action := Action.start id index started
  Service.attempt (Service.ask (.createAction action))
  -- From here on the attempt is seen through, whatever goes wrong.
  Service.count coordinator.account .reindexStarted
  coordinator.announce action
  let rebuilt ← Task.ofJob (coordinator.rebuild index)
  let action ← Task.ofJob (judge action index rebuilt)
  let size? ← Task.ofJob (coordinator.sizeAfter? index)
  let ended ← Service.ask .readClock
  let action := action.finish ended size?
  Service.log action.endedEvent
  let updated ← Task.ofJob (Service.ask (.updateAction action))
  coordinator.report action
  coordinator.conclude index action rebuilt updated

/-- An attempt, unless another worker has the lease. -/
def perform (coordinator : Coordinator) (index : Index) : Task Performed := do
  let key := coordinator.leaseKey index
  match ← Lease.holding key coordinator.settings.lease
      (coordinator.performLocked index).toJob with
  | some result => .done <$> Service.attempt (return result)
  | none =>
      Service.count coordinator.account .leaseSkipped
      Service.log (skippedEvent index key)
      return .skipped

/-! ### Leftovers -/

/-- Drops an index, unless another worker has the lease. -/
def drop (coordinator : Coordinator) (index : Index) : Task Dropped := do
  let key := coordinator.leaseKey index
  let dropping :=
    coordinator.retrier.run index.dropStatement.text coordinator.settings.timing false
  match ← Lease.holding key coordinator.settings.lease dropping.toJob with
  | none =>
      Service.count coordinator.account .leaseSkipped
      Service.log (dropSkippedEvent index key)
      return .skipped
  | some result =>
      match ← Service.attempt (return result) with
      | .completed attempts =>
          Service.count coordinator.account .indexesDropped
          Service.log (droppedEvent index attempts)
          return .dropped
      | .exhausted attempts =>
          Service.count coordinator.account .indexesAbandoned
          Service.log (dropAbandonedEvent index attempts)
          return .abandoned

/-- Drops indexes one after the other. -/
def dropAll (coordinator : Coordinator) : List Index → Task CleanupReport
  | [] => return {}
  | index :: rest => do
      let result ← coordinator.drop index
      let report ← coordinator.dropAll rest
      return report.prepend index.identifier result

/-- Drops the leftovers among the indexes. -/
def cleanup (coordinator : Coordinator) (indexes : List Index) : Task CleanupReport :=
  coordinator.dropAll (indexes.filter Index.isLeftover)

/-! ### Runs -/

/-- Attempts one after the other, up to the first that fails. -/
def performAll (coordinator : Coordinator) : List Index → Task (List Performed)
  | [] => return []
  | index :: rest => do
      let result ← coordinator.perform index
      let results ← coordinator.performAll rest
      return result :: results

/-- A run: the leftovers are dropped, and then up to `maximum` of the indexes that
are worth it are rebuilt. -/
def automatic (coordinator : Coordinator) (indexes : List Index) (maximum : Nat) :
    Task (List Performed) := do
  let _ ← coordinator.cleanup indexes
  let now ← Service.ask .readClock
  let candidates ←
    Selection.select coordinator.settings.thresholds indexes now maximum
  Service.log (selectedEvent candidates.length maximum)
  coordinator.performAll candidates

end Coordinator

end Upkeep
