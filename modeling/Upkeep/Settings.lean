import Upkeep.Ddl.Timing

/-!
# Settings

What an operator decides about upkeep, and what holds if nothing is decided.

## Main Definitions

* `Partition.Settings` — the upkeep of partitions.
* `Thresholds` — which indexes are worth a rebuild.
* `Reindex.Settings` — the upkeep of indexes.
* `Settings` — both.
-/

namespace Upkeep

/-- How partitions are kept up. -/
structure Partition.Settings where
  /-- The schema of the partitions that upkeep creates. -/
  schema : String := "partitions_dynamic"
  /-- What every lease key of partition upkeep begins with. -/
  keyspace : String := "database/partitioning"
  /-- How long one table's upkeep may take before its lease ends. -/
  lease : Duration := .ofSecs 60
  /-- How often statements are tried. -/
  timing : Ddl.Timing := .partitionDdl
  deriving DecidableEq, Repr

/-- A binary floating-point fraction, by its 64 bits. -/
structure Ratio where
  bits : UInt64
  deriving DecidableEq, Repr

/-- The number that the bits stand for. -/
def Ratio.toFloat (ratio : Ratio) : Float := Float.ofBits ratio.bits

/-- Which indexes are worth a rebuild. -/
structure Thresholds where
  /-- Smaller indexes are not worth it. -/
  minimumSize : UInt64 := 1073741824
  /-- Larger indexes would take too long. -/
  maximumSize : UInt64 := 107374182400
  /-- The least fraction of bloat. -/
  minimumBloat : Ratio := ⟨0x3fc999999999999a⟩
  /-- An index with an action that started within this time is left alone. -/
  recent : Duration := .ofSecs 864000
  deriving DecidableEq, Repr

/-- What a lease of index upkeep keeps others from. -/
inductive Reindex.Scope where
  /-- Any index of the same database. -/
  | perDatabase
  /-- The same index. -/
  | perIndex
  deriving DecidableEq, Repr

/-- The word for a scope. -/
def Reindex.Scope.word : Reindex.Scope → String
  | perDatabase => "per_database"
  | perIndex => "per_index"

/-- The scope that a word stands for. -/
def Reindex.Scope.ofWord? (word : String) : Option Reindex.Scope :=
  [perDatabase, perIndex].find? fun scope => scope.word == word

theorem Reindex.Scope.ofWord?_word (scope : Reindex.Scope) :
    ofWord? scope.word = some scope := by
  cases scope <;> decide

/-- How indexes are kept up. -/
structure Reindex.Settings where
  /-- How long one rebuild or drop may take before its lease ends. -/
  lease : Duration := .ofSecs 86400
  /-- What every lease key of index upkeep begins with. -/
  keyspace : String := "database/reindexing/coordinator"
  scope : Reindex.Scope := .perDatabase
  /-- How often dropping a leftover is tried. -/
  timing : Ddl.Timing := .indexRemoval
  thresholds : Thresholds := {}
  deriving DecidableEq, Repr

/-- Everything an operator decides. -/
structure Settings where
  reindex : Reindex.Settings := {}
  partitioning : Partition.Settings := {}
  deriving DecidableEq, Repr

end Upkeep
