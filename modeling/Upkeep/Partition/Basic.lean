import Upkeep.Error
import Upkeep.Sql.Statement

/-!
# Partitions

A partition of a table that is partitioned by the list of one integer column,
holding the rows of exactly one value.  A partition that upkeep creates is
named after its table and its value; one that the catalog lists may have any
name.

## Main Definitions

* `Partition` — with `named` for one to be created and `ofListing` for one that
  the catalog lists.
* `Partition.next` — the partition of the following value.
* `Partition.createStatement`, `Partition.detachStatement`.
* `Listing` — a partition as the catalog lists it.
* `Model` — what an application calls the table, and which columns it leaves
  alone.

## Design Notes

Partitions are ordered by table, value and name.  The schema takes no part in
the order although it takes part in equality: tables of one name in two schemas
compare as equal and are still two partitions.
-/

namespace Upkeep

/-- One partition of a table. -/
@[ext] structure Partition where
  /-- The partitioned table. -/
  table : String
  /-- The one value whose rows it holds. -/
  value : Int64
  /-- Its own name. -/
  name : String
  schema : String
  deriving DecidableEq, Repr

/-- A partition as the catalog lists it. -/
structure Listing where
  schema : String
  name : String
  /-- The bound expression. -/
  condition : String
  deriving DecidableEq, Repr

/-- What an application calls a table, and the columns that it neither reads nor
writes. -/
structure Model where
  name : String
  table : String
  ignored : List String := []
  deriving DecidableEq, Repr

/-- Whether the application leaves the column alone. -/
def Model.ignores (model : Model) (column : String) : Bool := model.ignored.contains column

namespace Partition

/-- The partition for a value of a table, named after both. -/
def named (table : String) (value : Int64) (schema : String) : Partition where
  table := table
  value := value
  name := table ++ "_" ++ String.ofList (Text.ofInt64 value)
  schema := schema

/-- The partition that the catalog lists, if its bound can be read. -/
def ofListing (table : String) (listing : Listing) : Except PartitionError Partition :=
  match Condition.parse listing.condition with
  | .ok value => .ok ⟨table, value, listing.name, listing.schema⟩
  | .error reason => .error (.unreadable table listing.name listing.condition reason)

/-- The value after the given one, unless there is none. -/
def nextValue? (value : Int64) : Option Int64 :=
  if value = Int64.maxValue then none else some (value + 1)

/-- The partition after the value of this one, in the given schema. -/
def following (partition : Partition) (schema : String) : Except PartitionError Partition :=
  match nextValue? partition.value with
  | some value => .ok (named partition.table value schema)
  | none => .error (.valueOverflow partition.table partition.value)

/-- The partition after this one, in the same schema. -/
def next (partition : Partition) : Except PartitionError Partition :=
  partition.following partition.schema

/-- The statement that creates the partition. -/
def createStatement (partition : Partition) : Sql.Statement :=
  .createPartition partition.schema partition.name partition.table partition.value

/-- The statement that makes the partition a table of its own. -/
def detachStatement (partition : Partition) : Sql.Statement :=
  .detachPartition partition.table partition.schema partition.name

/-- The partition's schema, name and value as people read them. -/
def describe (partition : Partition) : String :=
  partition.schema ++ "." ++ partition.name ++ " (" ++
    String.ofList (Text.ofInt64 partition.value) ++ ")"

instance : ToString Partition := ⟨describe⟩

/-- Partitions are ordered by table, then by value, then by name. -/
instance : Ord Partition where
  compare a b :=
    (compare a.table b.table).then ((compare a.value b.value).then (compare a.name b.name))

/-- The partitions in ascending order; those that compare as equal keep their
order. -/
def sort (partitions : List Partition) : List Partition :=
  partitions.mergeSort fun a b => (compare a b).isLE

theorem compare_def (a b : Partition) :
    compare a b =
      (compare a.table b.table).then
        ((compare a.value b.value).then (compare a.name b.name)) := rfl

@[simp] theorem length_sort (partitions : List Partition) :
    (sort partitions).length = partitions.length :=
  List.length_mergeSort partitions

theorem mem_sort {partition : Partition} {partitions : List Partition} :
    partition ∈ sort partitions ↔ partition ∈ partitions :=
  List.mem_mergeSort

end Partition

end Upkeep
