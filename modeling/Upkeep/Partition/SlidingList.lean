import Upkeep.Ddl.Retry
import Upkeep.Partition.Strategy
import Upkeep.Settings

/-!
# Sliding lists of partitions

A table whose rows only ever get newer is partitioned by an integer that only
ever grows.  The partition of the highest value is the active one: the column's
default is its value, so new rows land there.  A new active partition is added
when the application says that the active one has had its time, and the oldest
partitions are given up as long as the application says that it does not need
them.

## Main Definitions

* `SlidingList` — the strategy of one table, built by `SlidingList.new`.
* `SlidingList.current` — the attached partitions, the active one last.
* `SlidingList.missing`, `SlidingList.extra`, `SlidingList.afterAdding`,
  `SlidingList.lags` — its decisions.
* `SlidingList.strategy` — the decisions as a strategy.

## Design Notes

All that a decision is based on is read from the catalog when it is made.  The
partition that holds the default is never given up, even if the default lags
behind the active partition; that is an inconsistency, which is counted and
logged.
-/

namespace Upkeep.Partition

/-- The sliding list of one table. -/
structure SlidingList where
  model : Model
  /-- The partitioning column. -/
  column : String
  /-- The schema of new partitions. -/
  schema : String
  /-- How often moving the default is tried. -/
  timing : Ddl.Timing
  session : Session
  account : Account
  /-- The application leaves the partitioning column alone. -/
  ignores_column : model.ignores column = true

namespace SlidingList

/-! ### Events -/

/-- A partition that is no longer needed holds the default. -/
def inconsistentEvent (table : String) (value : Int64) : Event :=
  let numeral := String.ofList (Text.ofInt64 value)
  { level := .error
    message :=
      "Inconsistent partition detected: partition with value " ++ numeral ++
        " should not be detached because it's used as the default value"
    fields := [("table", table), ("partition_number", numeral)] }

/-- The default was moved. -/
def defaultMovedEvent (table column : String) (value : Int64) : Event where
  level := .info
  message := "Partitioning column default moved to active partition"
  fields :=
    [("table", table), ("column", column), ("value", String.ofList (Text.ofInt64 value))]

/-! ### Reading -/

/-- The sliding list of a model's table; the model must leave the column alone. -/
def new (model : Model) (column : String) (settings : Settings) (session : Session)
    (account : Account) : Except SetupError SlidingList :=
  if h : model.ignores column = true then
    .ok
      { model, column, schema := settings.schema, timing := settings.timing, session, account
        ignores_column := h }
  else .error (.columnNotIgnored model.name column)

/-- The partitioned table. -/
def table (list : SlidingList) : String := list.model.table

/-- How the list is shown when somebody looks into it. -/
def inspect (list : SlidingList) : String :=
  "SlidingListStrategy \x7b model: PartitionedModel \x7b name: " ++ Text.quoted list.model.name ++
    ", table_name: " ++ Text.quoted list.model.table ++ ", ignored_columns: \x7b" ++
    String.intercalate ", " (columns.map Text.quoted) ++ "\x7d \x7d, partitioning_key: " ++
    Text.quoted list.column ++ ", dynamic_schema: " ++ Text.quoted list.schema ++ ", .. \x7d"
where
  /-- The ignored columns in order, each once. -/
  columns : List String :=
    (list.model.ignored.eraseDups).mergeSort fun a b => (compare a b).isLE

/-- The partitions of the table as the catalog lists them. -/
def ofListings (table : String) (listings : List Listing) :
    Except PartitionError (List Partition) :=
  listings.mapM (Partition.ofListing table)

/-- The attached partitions in ascending order. -/
def current (list : SlidingList) : Task (List Partition) := do
  let listings ← Service.attempt (Service.ask (.listPartitions list.table))
  match ofListings list.table listings with
  | .ok partitions => return Partition.sort partitions
  | .error error => throw (.partitioning error)

/-- The partition of the highest value. -/
def active? (list : SlidingList) : Task (Option Partition) :=
  return (← list.current).getLast?

/-- The partition of the highest value, of which there must be one. -/
def active (list : SlidingList) : Task Partition := do
  match ← list.active? with
  | some partition => return partition
  | none => throw (.partitioning (.noPartitions list.table))

/-- Whether the table has no partitions yet. -/
def isEmpty (list : SlidingList) : Task Bool :=
  return (← list.current).isEmpty

/-- The first partition of the table. -/
def initial (list : SlidingList) : Partition := Partition.named list.table 1 list.schema

/-- The partition after the given one. -/
def following (list : SlidingList) (partition : Partition) : Task Partition :=
  match partition.following list.schema with
  | .ok next => return next
  | .error error => throw (.partitioning error)

/-- The partition after the active one. -/
def next (list : SlidingList) : Task Partition := do
  let active ← list.active
  list.following active

/-- The value of the column's default, if it has one. -/
def default? (list : SlidingList) : Task (Option Int64) := do
  match ← Service.attempt (Service.ask (.readDefault list.table list.column)) with
  | none => return none
  | some expression =>
      match Condition.default? expression with
      | some value => return some value
      | none => throw (.setup (.invalidDefault list.table list.column expression))

/-- The value of the column's default, which it must have. -/
def default (list : SlidingList) : Task Int64 := do
  match ← list.default? with
  | some value => return value
  | none => throw (.setup (.noDefault list.model.name list.column))

/-! ### Deciding -/

/-- The partitions to create: the first one of a table without any, and the one
after an active partition that has had its time. -/
def missing (list : SlidingList) : Task (List Partition) := do
  match (← list.current).getLast? with
  | none => return [list.initial]
  | some active =>
      if ← Service.ask (.isFull active.value) then
        return [← list.following active]
      else return []

/-- The longest prefix of the partitions that the application does not need. -/
def takeRetired : List Partition → Job Service (List Partition)
  | [] => return []
  | partition :: rest => do
      if ← Service.ask (.isRetired partition.value) then
        return partition :: (← takeRetired rest)
      else return []

/-- The partitions to give up: the oldest ones, as long as they are not needed,
but neither the active one nor the one that holds the default. -/
def extra (list : SlidingList) : Task (List Partition) := do
  let partitions ← list.current
  let value ← list.default
  -- The active partition is not even asked about.
  let retired ← Task.ofJob (takeRetired partitions.dropLast)
  if retired.any fun partition => partition.value == value then
    Service.count list.account .inconsistentPartitions
    Service.log (inconsistentEvent list.table value)
    return retired.filter fun partition => partition.value != value
  else return retired

/-- The statement that makes a value the default. -/
def setDefaultStatement (list : SlidingList) (value : Int64) : Sql.Statement :=
  .setDefault list.table list.column value

/-- Makes the value of the active partition the default. -/
def afterAdding (list : SlidingList) : Task Unit := do
  let active ← list.active
  let retrier : Ddl.Retrier := ⟨list.session, list.account⟩
  let _ ← retrier.run (list.setDefaultStatement active.value).text list.timing true
  Service.log (defaultMovedEvent list.table list.column active.value)

/-- Whether there is a default, and it is not the value of the active partition. -/
def lags (list : SlidingList) : Task Bool := do
  match ← list.active? with
  | none => return false
  | some active =>
      match ← list.default? with
      | some value => return value != active.value
      | none => return false

/-- The decisions of a sliding list. -/
def strategy (list : SlidingList) : Strategy where
  table := list.table
  missing := list.missing
  extra := list.extra
  afterAdding := list.afterAdding
  lags := list.lags

end SlidingList

end Upkeep.Partition
