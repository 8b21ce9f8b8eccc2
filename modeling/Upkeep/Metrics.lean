import Upkeep.Assoc

/-!
# Metrics

Counts of what upkeep did, for whoever watches it.  A counter is a 64-bit word
that only ever grows and starts again from zero when it overflows; a labelled
counter keeps one such word for each list of label values.

## Main Definitions

* `Counter`, `LabeledCounter` — a named count, and a named family of counts.
* `Meter` — the ten things that upkeep counts.
* `Metrics` — the ten counts.
* `Metrics.Snapshot` — their values at one moment, the labelled ones summed up.
-/

namespace Upkeep

/-- A named count. -/
structure Counter where
  name : String
  help : String
  value : UInt64 := 0
  deriving DecidableEq, Repr

/-- The counter after counting `n` more. -/
def Counter.add (counter : Counter) (n : UInt64) : Counter :=
  { counter with value := counter.value + n }

@[simp] theorem Counter.value_add (counter : Counter) (n : UInt64) :
    (counter.add n).value = counter.value + n := rfl

/-- A named family of counts, one for each list of label values. -/
structure LabeledCounter where
  name : String
  help : String
  labels : List String
  values : List (List String × UInt64) := []
  deriving DecidableEq, Repr

namespace LabeledCounter

/-- The count under the given labels, which is zero before the first one. -/
def get (counter : LabeledCounter) (key : List String) : UInt64 :=
  (counter.values.lookup key).getD 0

/-- The counter after counting `n` more under the given labels. -/
def add (counter : LabeledCounter) (key : List String) (n : UInt64) : LabeledCounter :=
  { counter with values := Assoc.put key (counter.get key + n) counter.values }

/-- The sum of all counts. -/
def total (counter : LabeledCounter) : UInt64 :=
  counter.values.foldl (fun sum entry => sum + entry.2) 0

/-- Counting changes the counted labels' value alone. -/
theorem get_add (counter : LabeledCounter) (key key' : List String) (n : UInt64) :
    (counter.add key n).get key' =
      if key' = key then counter.get key + n else counter.get key' := by
  by_cases h : key' = key <;> simp [add, get, Assoc.lookup_put, h]

end LabeledCounter

/-- What upkeep counts. -/
inductive Meter where
  | reindexStarted
  | reindexFinished
  | reindexFailed
  | leaseSkipped
  | indexesDropped
  | indexesAbandoned
  | lockRetries
  | inconsistentPartitions
  | partitionsCreated (table : String)
  | partitionsDetached (table : String)
  deriving DecidableEq, Repr

/-- The counts of one worker, or of several that share them. -/
structure Metrics where
  reindexStarted : Counter := ⟨"reindex_started_total", "Reindex attempts started", 0⟩
  reindexFinished : Counter := ⟨"reindex_finished_total", "Reindex attempts finished", 0⟩
  reindexFailed : Counter := ⟨"reindex_failed_total", "Reindex attempts failed", 0⟩
  leaseSkipped : Counter :=
    ⟨"maintenance_lease_skipped_total",
      "Operations skipped because another worker held the lease", 0⟩
  indexesDropped : Counter :=
    ⟨"leftover_indexes_dropped_total", "Leftover indexes dropped", 0⟩
  indexesAbandoned : Counter :=
    ⟨"leftover_indexes_abandoned_total",
      "Leftover index removals abandoned after lock retries", 0⟩
  lockRetries : Counter := ⟨"ddl_lock_retries_total", "DDL lock timeouts retried", 0⟩
  inconsistentPartitions : Counter :=
    ⟨"partitions_inconsistent_total",
      "Detach candidates excluded because they hold the column default", 0⟩
  partitionsCreated : LabeledCounter :=
    ⟨"partitions_created_total", "Partitions created", ["table"], []⟩
  partitionsDetached : LabeledCounter :=
    ⟨"partitions_detached_total", "Partitions detached", ["table"], []⟩
  deriving DecidableEq, Repr

/-- The meter of a counter, by the counter's name and, for a labelled one, the
table; a plain one has no use for a table. -/
def Meter.ofName? (name : String) (table? : Option String) : Option Meter :=
  let plain :=
    [("reindex_started_total", reindexStarted), ("reindex_finished_total", reindexFinished),
      ("reindex_failed_total", reindexFailed),
      ("maintenance_lease_skipped_total", leaseSkipped),
      ("leftover_indexes_dropped_total", indexesDropped),
      ("leftover_indexes_abandoned_total", indexesAbandoned),
      ("ddl_lock_retries_total", lockRetries),
      ("partitions_inconsistent_total", inconsistentPartitions)]
  let labelled (table : String) :=
    [("partitions_created_total", partitionsCreated table),
      ("partitions_detached_total", partitionsDetached table)]
  (plain.lookup name).or (table?.bind fun table => (labelled table).lookup name)

namespace Metrics

instance : Inhabited Metrics := ⟨{}⟩

/-- The counts after counting `n` more of one thing. -/
def add (metrics : Metrics) (n : UInt64) : Meter → Metrics
  | .reindexStarted => { metrics with reindexStarted := metrics.reindexStarted.add n }
  | .reindexFinished => { metrics with reindexFinished := metrics.reindexFinished.add n }
  | .reindexFailed => { metrics with reindexFailed := metrics.reindexFailed.add n }
  | .leaseSkipped => { metrics with leaseSkipped := metrics.leaseSkipped.add n }
  | .indexesDropped => { metrics with indexesDropped := metrics.indexesDropped.add n }
  | .indexesAbandoned => { metrics with indexesAbandoned := metrics.indexesAbandoned.add n }
  | .lockRetries => { metrics with lockRetries := metrics.lockRetries.add n }
  | .inconsistentPartitions =>
      { metrics with inconsistentPartitions := metrics.inconsistentPartitions.add n }
  | .partitionsCreated table =>
      { metrics with partitionsCreated := metrics.partitionsCreated.add [table] n }
  | .partitionsDetached table =>
      { metrics with partitionsDetached := metrics.partitionsDetached.add [table] n }

/-- The unlabelled counters, in the order in which they are reported. -/
def plain (metrics : Metrics) : List Counter :=
  [metrics.reindexStarted, metrics.reindexFinished, metrics.reindexFailed,
    metrics.leaseSkipped, metrics.indexesDropped, metrics.indexesAbandoned,
    metrics.lockRetries, metrics.inconsistentPartitions]

/-- The labelled counters, in the order in which they are reported. -/
def labeled (metrics : Metrics) : List LabeledCounter :=
  [metrics.partitionsCreated, metrics.partitionsDetached]

/-- The values of all counters at one moment. -/
structure Snapshot where
  reindexStarted : UInt64
  reindexFinished : UInt64
  reindexFailed : UInt64
  leaseSkipped : UInt64
  indexesDropped : UInt64
  indexesAbandoned : UInt64
  lockRetries : UInt64
  inconsistentPartitions : UInt64
  partitionsCreated : UInt64
  partitionsDetached : UInt64
  deriving DecidableEq, Repr

/-- The values with their names. -/
def Snapshot.entries (snapshot : Snapshot) : List (String × UInt64) :=
  [("reindex_started", snapshot.reindexStarted), ("reindex_finished", snapshot.reindexFinished),
    ("reindex_failed", snapshot.reindexFailed), ("lease_skipped", snapshot.leaseSkipped),
    ("indexes_dropped", snapshot.indexesDropped),
    ("indexes_abandoned", snapshot.indexesAbandoned), ("lock_retries", snapshot.lockRetries),
    ("inconsistent_partitions", snapshot.inconsistentPartitions),
    ("partitions_created", snapshot.partitionsCreated),
    ("partitions_detached", snapshot.partitionsDetached)]

/-- The values of all counters now. -/
def snapshot (metrics : Metrics) : Snapshot where
  reindexStarted := metrics.reindexStarted.value
  reindexFinished := metrics.reindexFinished.value
  reindexFailed := metrics.reindexFailed.value
  leaseSkipped := metrics.leaseSkipped.value
  indexesDropped := metrics.indexesDropped.value
  indexesAbandoned := metrics.indexesAbandoned.value
  lockRetries := metrics.lockRetries.value
  inconsistentPartitions := metrics.inconsistentPartitions.value
  partitionsCreated := metrics.partitionsCreated.total
  partitionsDetached := metrics.partitionsDetached.total

end Metrics

end Upkeep
