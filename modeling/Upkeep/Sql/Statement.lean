import Upkeep.Sql.Identifier
import Upkeep.Text.Numeral

/-!
# Statements

Everything this library ever asks the database to do, and the text in which it
asks.  Names are always quoted; values are bare numerals.
-/

namespace Upkeep.Sql

/-- A statement of partition or index upkeep. -/
inductive Statement where
  /-- Create a partition that holds one value, unless a table of its name exists. -/
  | createPartition (schema name table : String) (value : Int64)
  /-- Make a partition a table of its own. -/
  | detachPartition (table schema name : String)
  /-- Let a column default to a value. -/
  | setDefault (table column : String) (value : Int64)
  /-- Drop an index without blocking writes, if it exists. -/
  | dropIndex (schema name : String)
  /-- Bound how long the session waits for a lock. -/
  | setLockTimeout (millis : Nat)
  /-- Undo the bound on waiting for a lock. -/
  | resetLockTimeout
  deriving DecidableEq, Repr

namespace Statement

/-- The text of a statement. -/
def text : Statement → String
  | createPartition schema name table value =>
      "CREATE TABLE IF NOT EXISTS " ++ quoteQualified schema name ++ " PARTITION OF " ++
        quoteIdent table ++ " FOR VALUES IN (" ++ String.ofList (Text.ofInt64 value) ++ ")"
  | detachPartition table schema name =>
      "ALTER TABLE " ++ quoteIdent table ++ " DETACH PARTITION " ++ quoteQualified schema name
  | setDefault table column value =>
      "ALTER TABLE " ++ quoteIdent table ++ " ALTER COLUMN " ++ quoteIdent column ++
        " SET DEFAULT " ++ String.ofList (Text.ofInt64 value)
  | dropIndex schema name =>
      "DROP INDEX CONCURRENTLY IF EXISTS " ++ quoteQualified schema name
  | setLockTimeout millis =>
      "SET lock_timeout TO '" ++ toString millis ++ "ms'"
  | resetLockTimeout => "RESET lock_timeout"

instance : ToString Statement := ⟨text⟩

end Statement

end Upkeep.Sql
