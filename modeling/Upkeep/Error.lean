import Upkeep.Partition.Condition
import Upkeep.Sql.Failure
import Upkeep.Uuid

/-!
# Errors

What can go wrong in upkeep, by cause.  Each group of causes has its own type;
`Error` joins the groups.  Every cause has a `code`, a name for programs, and a
`message` for people; an error's message always contains the messages of the
errors that it was caused by.

## Main Definitions

* `SetupError` — mistakes that no retry mends.
* `PartitionError` — what the catalog or the table's partitions are at fault for.
* `LeaseError`, `FileFault`, `StoreError` — faults of the stores.
* `Error` — any of these, or a failed statement or rebuild.
* `Error.code`, `Error.message` — its name and its wording.
* `Error.causes` — the messages below the outermost one.
-/

namespace Upkeep

/-- Mistakes in how upkeep was set up. -/
inductive SetupError where
  /-- The model still uses the partitioning column. -/
  | columnNotIgnored (model column : String)
  /-- The partitioning column has no default. -/
  | noDefault (model column : String)
  /-- The partitioning column's default is no integer. -/
  | invalidDefault (table column value : String)
  /-- A retry schedule without an attempt. -/
  | emptyTiming
  deriving DecidableEq, Repr

/-- The name of a setup mistake. -/
def SetupError.code : SetupError → String
  | columnNotIgnored .. => "PartitioningColumnNotIgnored"
  | noDefault .. => "NoDefaultValue"
  | invalidDefault .. => "InvalidDefaultValue"
  | emptyTiming => "EmptyTimingConfiguration"

/-- The wording of a setup mistake. -/
def SetupError.message : SetupError → String
  | columnNotIgnored model column =>
      "add " ++ column ++ " to " ++ model ++ ".ignored_columns to use it with SlidingListStrategy"
  | noDefault model column =>
      "no default value found for the " ++ column ++ " column within " ++ model
  | invalidDefault table column value =>
      "default value " ++ Text.quoted value ++ " of " ++ table ++ "." ++ column ++
        " is not an integer"
  | emptyTiming => "timing configuration must contain at least one entry"

/-- Faults of a table's partitions or of the catalog that lists them. -/
inductive PartitionError where
  /-- A partition has a bound that cannot be read. -/
  | unreadable (table partition condition : String) (reason : Partition.Condition.Fault)
  /-- The catalog did not answer. -/
  | catalogUnavailable (table reason : String)
  /-- The table has no partition although one is needed. -/
  | noPartitions (table : String)
  /-- There is no value above the given one. -/
  | valueOverflow (table : String) (value : Int64)
  deriving DecidableEq, Repr

/-- The name of a partition fault. -/
def PartitionError.code : PartitionError → String
  | unreadable .. => "CatalogParse"
  | catalogUnavailable .. => "CatalogRead"
  | noPartitions _ => "NoPartitions"
  | valueOverflow .. => "ValueOverflow"

/-- The wording of a partition fault. -/
def PartitionError.message : PartitionError → String
  | unreadable table partition condition reason =>
      "unknown partition definition for " ++ partition ++ " of " ++ table ++ ": " ++
        Text.quoted condition ++ " (" ++ reason.message ++ ")"
  | catalogUnavailable table reason => "catalog read failed for " ++ table ++ ": " ++ reason
  | noPartitions table => "table " ++ table ++ " has no partitions"
  | valueOverflow table value =>
      "partition value " ++ String.ofList (Text.ofInt64 value) ++ " of " ++ table ++
        " cannot be advanced"

/-- Faults of a lease store. -/
inductive LeaseError where
  /-- The store cannot be reached. -/
  | unavailable (reason : String)
  deriving DecidableEq, Repr

/-- The name of a lease store's fault. -/
def LeaseError.code : LeaseError → String
  | unavailable _ => "Unavailable"

/-- The wording of a lease store's fault. -/
def LeaseError.message : LeaseError → String
  | unavailable reason => "lease store unavailable: " ++ reason

/-- Refusals of the file system. -/
inductive FileFault where
  | notFound
  | alreadyExists
  | notADirectory
  | isADirectory
  /-- A refusal that is known by its text alone. -/
  | other (text : String)
  deriving DecidableEq, Repr

/-- The name of a refusal. -/
def FileFault.code : FileFault → String
  | notFound => "NotFound"
  | alreadyExists => "AlreadyExists"
  | notADirectory => "NotADirectory"
  | isADirectory => "IsADirectory"
  | other _ => "Other"

/-- The wording of a refusal, with the number that the system gives it. -/
def FileFault.message : FileFault → String
  | notFound => "No such file or directory (os error 2)"
  | alreadyExists => "File exists (os error 17)"
  | notADirectory => "Not a directory (os error 20)"
  | isADirectory => "Is a directory (os error 21)"
  | other text => text

/-- Faults of a store of actions. -/
inductive StoreError where
  /-- An action could not be written as bytes or read from them. -/
  | serialization (text : String)
  /-- The file system refused. -/
  | file (fault : FileFault)
  /-- There is no action to update. -/
  | notFound (id : Uuid)
  deriving DecidableEq, Repr

/-- The name of an action store's fault. -/
def StoreError.code : StoreError → String
  | serialization _ => "Serialization"
  | file _ => "Io"
  | notFound _ => "NotFound"

/-- The wording of an action store's fault. -/
def StoreError.message : StoreError → String
  | serialization text => "serialization error: " ++ text
  | file fault => "io error: " ++ fault.message
  | notFound id => "action not found: " ++ id.toText

/-- Anything that can go wrong in upkeep. -/
inductive Error where
  | setup (error : SetupError)
  | partitioning (error : PartitionError)
  /-- A statement failed. -/
  | statement (failure : Sql.Failure)
  /-- Each of so many attempts ran into a lock timeout, the last one as given. -/
  | retriesExhausted (attempts : Nat) (last : Sql.Failure)
  | lease (error : LeaseError)
  | store (error : StoreError)
  /-- The rebuild of an index failed. -/
  | rebuildFailed (index : String) (cause : Error)
  /-- A notification could not be delivered. -/
  | notification (text : String)
  deriving DecidableEq, Repr

namespace Error

/-- The name of an error's group. -/
def code : Error → String
  | setup _ => "Config"
  | partitioning _ => "Partitioning"
  | statement _ => "Ddl"
  | retriesExhausted .. => "LockRetriesExhausted"
  | lease _ => "Lease"
  | store _ => "ActionStore"
  | rebuildFailed .. => "RebuildFailed"
  | notification _ => "Notification"

/-- The wording of an error. -/
def message : Error → String
  | setup error => "config error: " ++ error.message
  | partitioning error => "partitioning error: " ++ error.message
  | statement failure => "ddl error: " ++ failure.message
  | retriesExhausted attempts last =>
      "lock retries exhausted after " ++ toString attempts ++ " attempts: " ++ last.message
  | lease error => "lease error: " ++ error.message
  | store error => "action store error: " ++ error.message
  | rebuildFailed index cause => "rebuild of index " ++ index ++ " failed: " ++ cause.message
  | notification text => "notification failed: " ++ text

/-- The messages of the errors below this one, the outermost first. -/
def causes : Error → List String
  | setup error => [error.message]
  | partitioning error =>
      match error with
      | .unreadable _ _ _ reason => [error.message, reason.message]
      | _ => [error.message]
  | statement failure => [failure.message]
  | retriesExhausted _ last => [last.message]
  | lease error => [error.message]
  | store error =>
      match error with
      | .file fault => [error.message, fault.message]
      | _ => [error.message]
  | rebuildFailed _ cause => cause.message :: cause.causes
  | notification _ => []

end Error

end Upkeep
