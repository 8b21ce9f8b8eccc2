import Upkeep.Text.Blank
import Upkeep.Text.Phrase

/-!
# What a statement changes

A statement's text read for what it does to the catalog.  The reading is a
loose one: it looks for the fixed phrases of partition statements and takes the
names to be whatever stands between them, so it understands statements that
were not written by this library, and makes nothing of all others.

Names that contain one of the phrases themselves are cut at the wrong place.

## Main Definitions

* `Change` — attaching, detaching, and setting a default.
* `Change.ofSql?` — what the text of a statement changes, if anything.
-/

namespace Upkeep.Sql

/-- A change to the catalog of partitioned tables. -/
inductive Change where
  /-- Attach a partition with a bound expression. -/
  | attach (table schema name condition : String)
  /-- Detach a partition. -/
  | detach (table schema name : String)
  /-- Set the default expression of a column. -/
  | setDefault (table column value : String)
  deriving DecidableEq, Repr

/-- The text with every pair of double quotes written as one. -/
def undoubleQuotes : List Char → List Char
  | [] => []
  | '"' :: '"' :: cs => '"' :: undoubleQuotes cs
  | c :: cs => c :: undoubleQuotes cs

/-- The name that stands between blanks, with or without quotes. -/
def bareName (cs : List Char) : List Char :=
  undoubleQuotes (Text.unquoted '"' (Text.trimBlanks cs))

/-- The schema and the name on the two sides of the first quoted dot. -/
def qualifiedName? (cs : List Char) : Option (List Char × List Char) :=
  -- Each side gets back the quote that the split has taken from it.
  (Text.splitOnce ['"', '.', '"'] (Text.trimBlanks cs)).map fun parts =>
    (bareName (parts.1 ++ ['"']), bareName ('"' :: parts.2))

namespace Change

/-- What the part of a statement after `CREATE TABLE IF NOT EXISTS` changes. -/
def ofCreate? (cs : List Char) : Option Change := do
  let (qualified, rest) ← Text.splitOnce " PARTITION OF ".toList cs
  let (table, bound) ← Text.splitOnce " FOR VALUES IN ".toList rest
  let (schema, name) ← qualifiedName? qualified
  return attach (String.ofList (bareName table)) (String.ofList schema) (String.ofList name)
    ("FOR VALUES IN " ++ String.ofList bound)

/-- What the part of a statement after `ALTER TABLE` changes. -/
def ofAlter? (cs : List Char) : Option Change :=
  match Text.splitOnce " DETACH PARTITION ".toList cs with
  | some (table, qualified) => do
      let (schema, name) ← qualifiedName? qualified
      return detach (String.ofList (bareName table)) (String.ofList schema) (String.ofList name)
  | none => do
      let (table, rest) ← Text.splitOnce " ALTER COLUMN ".toList cs
      let (column, value) ← Text.splitOnce " SET DEFAULT ".toList rest
      return setDefault (String.ofList (bareName table)) (String.ofList (bareName column))
        (String.ofList (Text.trimBlanks value))

/-- What the text of a statement changes; nothing, if it is no partition
statement. -/
def ofSql? (sql : String) : Option Change :=
  match Text.after? "CREATE TABLE IF NOT EXISTS ".toList sql.toList with
  | some rest => ofCreate? rest
  | none =>
      match Text.after? "ALTER TABLE ".toList sql.toList with
      | some rest => ofAlter? rest
      | none => none

end Change

end Upkeep.Sql
