import Upkeep.Service

/-!
# Partitioning strategies

A strategy decides which partitions a table should have.  It is consulted anew
at each step of the upkeep and keeps nothing in mind in between.
-/

namespace Upkeep.Partition

/-- What decides about the partitions of one table. -/
structure Strategy where
  /-- The table. -/
  table : String
  /-- The partitions to create now. -/
  missing : Task (List Partition)
  /-- The partitions that may be detached now. -/
  extra : Task (List Partition)
  /-- What is left to do once partitions were created. -/
  afterAdding : Task Unit
  /-- Whether an earlier upkeep was stopped before it did what was left to do. -/
  lags : Task Bool := return false

/-- The strategy of a table whose partitions are planned elsewhere. -/
def Strategy.planned (table : String) : Strategy where
  table := table
  missing := Service.attempt (Service.ask .plannedMissing)
  extra := Service.attempt (Service.ask .plannedExtra)
  afterAdding := Service.attempt (Service.ask .plannedAdded)

end Upkeep.Partition
