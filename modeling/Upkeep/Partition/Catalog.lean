import Upkeep.Assoc
import Upkeep.Partition.Basic
import Upkeep.Sql.Change

/-!
# The catalog of partitioned tables

Which partitions are attached to which table, and which columns default to what:
everything that the database remembers about partitions.  Partition statements
change it, and upkeep reads it anew each time it decides anything.

## Main Definitions

* `Catalog` — attached partitions per table, and column defaults.
* `Catalog.attach`, `Catalog.detach`, `Catalog.setDefault` — the changes, and
  `Catalog.apply` for a change that was read from a statement.
* `Catalog.partitions`, `Catalog.default?`, `Catalog.values` — what is there.
-/

namespace Upkeep

/-- Attached partitions per table in the order of attaching, and the default
expressions of columns. -/
structure Catalog where
  attached : List (String × Listing) := []
  defaults : List ((String × String) × String) := []
  deriving DecidableEq, Repr, Inhabited

namespace Catalog

/-- The partitions of a table in the order of attaching. -/
def partitions (catalog : Catalog) (table : String) : List Listing :=
  catalog.attached.filterMap fun entry => if entry.1 = table then some entry.2 else none

/-- Whether a partition of that schema and name is attached to the table. -/
def isAttached (catalog : Catalog) (table schema name : String) : Bool :=
  catalog.attached.any fun entry =>
    entry.1 == table && entry.2.schema == schema && entry.2.name == name

/-- The default expression of a column. -/
def default? (catalog : Catalog) (table column : String) : Option String :=
  catalog.defaults.lookup (table, column)

/-- The catalog with a partition attached, unless one of that schema and name is
attached already. -/
def attach (catalog : Catalog) (table : String) (listing : Listing) : Catalog :=
  if catalog.isAttached table listing.schema listing.name then catalog
  else { catalog with attached := catalog.attached ++ [(table, listing)] }

/-- The catalog without the partition of that schema and name. -/
def detach (catalog : Catalog) (table schema name : String) : Catalog :=
  { catalog with
    attached := catalog.attached.filter fun entry =>
      !(entry.1 == table && entry.2.schema == schema && entry.2.name == name) }

/-- The catalog with another default expression of a column. -/
def setDefault (catalog : Catalog) (table column value : String) : Catalog :=
  { catalog with defaults := Assoc.put (table, column) value catalog.defaults }

/-- The catalog after a change. -/
def apply (catalog : Catalog) : Sql.Change → Catalog
  | .attach table schema name condition => catalog.attach table ⟨schema, name, condition⟩
  | .detach table schema name => catalog.detach table schema name
  | .setDefault table column value => catalog.setDefault table column value

/-- The catalog after a statement has succeeded. -/
def execute (catalog : Catalog) (sql : String) : Catalog :=
  match Sql.Change.ofSql? sql with
  | some change => catalog.apply change
  | none => catalog

/-- The values of a table's partitions as far as their bounds can be read, in
ascending order. -/
def values (catalog : Catalog) (table : String) : List Int64 :=
  ((catalog.partitions table).filterMap fun listing =>
    (Partition.Condition.parse listing.condition).toOption).mergeSort

/-- The schema in which `attachValues` puts partitions. -/
def dynamicSchema : String := "partitions_dynamic"

/-- The catalog with a partition attached for each value, named after the table
and the value. -/
def attachValues (catalog : Catalog) (table : String) (values : List Int64) : Catalog :=
  values.foldl (fun catalog value =>
    let numeral := String.ofList (Text.ofInt64 value)
    catalog.attach table
      ⟨dynamicSchema, table ++ "_" ++ numeral, "FOR VALUES IN ('" ++ numeral ++ "')"⟩) catalog

/-- A default is what it was last set to, and no other is affected. -/
theorem default?_setDefault (catalog : Catalog) (table table' column column' value : String) :
    (catalog.setDefault table column value).default? table' column' =
      if (table', column') = (table, column) then some value
      else catalog.default? table' column' := by
  simp [default?, setDefault, Assoc.lookup_put]

end Catalog

end Upkeep
