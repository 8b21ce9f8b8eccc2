import Upkeep.Sql.Statement
import Upkeep.Text.Phrase

/-!
# Indexes

An index of one database with what is known about its size.  A concurrent
rebuild builds the new index under the old one's name and a suffix; one that
was interrupted leaves that index behind.

## Main Definitions

* `Index` — an index, its `identifier` within the database and its `display`
  across databases.
* `Index.isLeftover` — whether an interrupted rebuild left it behind.
* `Index.relativeBloat` — which fraction of it is bloat.
-/

namespace Upkeep

/-- An index of one database. -/
@[ext] structure Index where
  database : String
  schema : String
  name : String
  /-- The size on disk, in bytes. -/
  size : UInt64 := 0
  /-- An estimate of the wasted bytes, if there is one. -/
  bloat : Option UInt64 := none
  unique : Bool := false
  valid : Bool := true
  deriving DecidableEq, Repr

namespace Index

/-- The schema and the name, with a dot between them. -/
def identifier (index : Index) : String := index.schema ++ "." ++ index.name

/-- The database, the schema and the name, with dots between them. -/
def display (index : Index) : String :=
  index.database ++ "." ++ index.schema ++ "." ++ index.name

instance : ToString Index := ⟨display⟩

/-- The quoted schema and name. -/
def quotedIdentifier (index : Index) : String := Sql.quoteQualified index.schema index.name

/-- The statement that drops the index. -/
def dropStatement (index : Index) : Sql.Statement := .dropIndex index.schema index.name

/-- What the name of an index has at its end while the index is being built,
before a number that keeps such names apart. -/
def buildSuffix : List Char := "_ccnew".toList

/-- Whether the name is that of an index which an interrupted rebuild left
behind: nothing but digits follows the last suffix of building. -/
def isLeftover (index : Index) : Bool :=
  match Text.afterLast? buildSuffix index.name.toList with
  | some rest => rest.all Char.isDigit
  | none => false

/-- Which fraction of the index is bloat; unknown without an estimate, and for an
empty index. -/
def relativeBloat (index : Index) : Option Float :=
  match index.bloat with
  | some bloat =>
      if index.size = 0 then none else some (bloat.toFloat / index.size.toFloat)
  | none => none

/-- The bytes that a rebuild may win back, as far as they are known. -/
def bloatEstimate (index : Index) : UInt64 := index.bloat.getD 0

@[simp] theorem relativeBloat_of_size_eq_zero {index : Index} (h : index.size = 0) :
    index.relativeBloat = none := by
  unfold relativeBloat
  split <;> simp [h]

end Index

end Upkeep
