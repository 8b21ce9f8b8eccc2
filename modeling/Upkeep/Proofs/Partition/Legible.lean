import Upkeep.Proofs.Partition.InOrder

/-!
# Statements that are read as they are meant

The catalog takes part in upkeep only through the texts of statements.  Here are the tables
for which these texts are read as what they are meant to change, whatever the partitions are
called and whichever schema they are in, and what a change does to the table that it names
and to all others.

## Main Definitions

* `Statement.change?`, `Statement.IsLegible` — what a statement is meant to change, and that
  its text is read so.
* `Legible` — all statements that upkeep of a list may come to make are read so.
* `Catalog.AgreesOn` — two catalogs list one table alike.
* `Catalog.IsDistinct` — no two partitions of a table have the same schema and name.

## Main Statements

* `legible_of_isPlain` — it is enough that names contain no phrase of a statement.
* `AgreesOn.apply`, `agreesOn_apply_of_ne` — a change affects its own table, and in the same way
  wherever that is listed alike.
-/

namespace Upkeep

namespace Sql

/-- The table that a change is about. -/
def Change.table : Change → String
  | attach table _ _ _ => table
  | detach table _ _ => table
  | setDefault table _ _ => table

namespace Statement

/-- What the statement is meant to change, if it is a partition statement. -/
def change? : Statement → Option Change
  | createPartition schema name table value =>
      some (.attach table schema name (writtenBound value))
  | detachPartition table schema name => some (.detach table schema name)
  | setDefault table column value =>
      some (.setDefault table column (String.ofList (Text.ofInt64 value)))
  | _ => none

/-- The text of the statement is read as what the statement is meant to change. -/
def IsLegible (statement : Statement) : Prop :=
  Change.ofSql? statement.text = statement.change?

end Statement

end Sql

/-! ### Catalogs that list a table alike -/

namespace Catalog

variable {catalog catalog' : Catalog} {table : String}

/-- Both catalogs have the same partitions of the table and the same defaults of its columns. -/
structure AgreesOn (catalog : Catalog) (table : String) (catalog' : Catalog) : Prop where
  partitions : catalog'.partitions table = catalog.partitions table
  default? : ∀ column, catalog'.default? table column = catalog.default? table column

namespace AgreesOn

theorem refl (catalog : Catalog) (table : String) : catalog.AgreesOn table catalog :=
  ⟨rfl, fun _ => rfl⟩

theorem symm (h : catalog.AgreesOn table catalog') : catalog'.AgreesOn table catalog :=
  ⟨h.partitions.symm, fun column => (h.default? column).symm⟩

theorem trans {catalog'' : Catalog} (h : catalog.AgreesOn table catalog')
    (h' : catalog'.AgreesOn table catalog'') : catalog.AgreesOn table catalog'' :=
  ⟨h'.partitions.trans h.partitions, fun column => (h'.default? column).trans (h.default? column)⟩

theorem isAttached (h : catalog.AgreesOn table catalog') (schema name : String) :
    catalog'.isAttached table schema name = catalog.isAttached table schema name := by
  rw [Bool.eq_iff_iff, isAttached_eq_true_iff, isAttached_eq_true_iff, h.partitions]

end AgreesOn

/-- What stays attached, and what is new, when something is attached to a table. -/
theorem partitions_attach_eq (listing : Listing) :
    (catalog.attach table listing).partitions table =
      if catalog.isAttached table listing.schema listing.name then catalog.partitions table
      else catalog.partitions table ++ [listing] := by
  split
  · next attached => rw [attach, if_pos attached]
  · next absent => exact partitions_attach (Bool.not_eq_true _ ▸ absent)

/-- A change leaves the other tables alone. -/
theorem agreesOn_apply_of_ne {change : Sql.Change} (other : change.table ≠ table) :
    catalog.AgreesOn table (catalog.apply change) := by
  cases change with
  | attach changed schema name condition =>
      have skipped : ¬changed = table := other
      refine ⟨?_, fun column => default?_attach table column _⟩
      simp only [apply, attach]
      split
      · rfl
      · simp [partitions, List.filterMap_append, skipped]
  | detach changed schema name =>
      refine ⟨?_, fun _ => rfl⟩
      simp only [apply, detach, partitions, List.filterMap_filter]
      refine List.filterMap_congr fun entry _ => ?_
      by_cases here : entry.1 = table
      · have kept : (entry.1 == changed) = false :=
          beq_false_of_ne fun same => other (same.symm.trans here)
        simp [kept]
      · simp [here]
  | setDefault changed column value =>
      refine ⟨rfl, fun column' => ?_⟩
      have skipped : ¬(table, column') = (changed, column) := fun same =>
        other (Prod.mk.inj same).1.symm
      rw [apply, default?_setDefault, if_neg skipped]

/-- A change does the same to the table it is about wherever that is listed alike. -/
theorem AgreesOn.apply (h : catalog.AgreesOn table catalog') {change : Sql.Change}
    (own : change.table = table) :
    (catalog.apply change).AgreesOn table (catalog'.apply change) := by
  subst own
  cases change with
  | attach table schema name condition =>
      replace h : catalog.AgreesOn table catalog' := h
      refine ⟨?_, fun column => ?_⟩
      · simp only [Catalog.apply, Sql.Change.table, partitions_attach_eq, h.isAttached,
          h.partitions]
      · simp only [Catalog.apply, Sql.Change.table, default?_attach, h.default?]
  | detach table schema name =>
      replace h : catalog.AgreesOn table catalog' := h
      refine ⟨?_, fun column => h.default? column⟩
      simp only [Catalog.apply, Sql.Change.table, partitions_detach, h.partitions]
  | setDefault table column value =>
      replace h : catalog.AgreesOn table catalog' := h
      refine ⟨h.partitions, fun column' => ?_⟩
      simp only [Catalog.apply, Sql.Change.table, default?_setDefault, h.default?]

/-- No two partitions of the table have the same schema and name. -/
def IsDistinct (catalog : Catalog) (table : String) : Prop :=
  ((catalog.partitions table).map fun listing => (listing.schema, listing.name)).Nodup

/-- **Every change keeps the partitions of a table distinct**, so they are in every catalog that
was empty once. -/
theorem IsDistinct.apply (distinct : catalog.IsDistinct table) (change : Sql.Change) :
    (catalog.apply change).IsDistinct table := by
  by_cases own : change.table = table
  · subst own
    cases change with
    | attach table schema name condition =>
        simp only [IsDistinct, Catalog.apply, Sql.Change.table, partitions_attach_eq]
        split
        · exact distinct
        · next absent =>
            rw [List.map_append, List.map_singleton, List.nodup_append_comm]
            refine List.nodup_cons.2 ⟨fun there => absent ?_, distinct⟩
            obtain ⟨listing, mem, same⟩ := List.mem_map.1 there
            exact isAttached_eq_true_iff.2
              ⟨listing, mem, (Prod.mk.inj same).1, (Prod.mk.inj same).2⟩
    | detach table schema name =>
        rw [IsDistinct, Catalog.apply, Sql.Change.table, partitions_detach]
        exact distinct.sublist (List.filter_sublist.map _)
    | setDefault table column value => exact distinct
  · rw [IsDistinct, (agreesOn_apply_of_ne own).partitions]
    exact distinct

theorem isDistinct_empty (table : String) : ({} : Catalog).IsDistinct table := .nil

end Catalog

/-! ### Legible tables -/

namespace Partition

/-- The statements that upkeep of the list may come to make in this catalog are read as they are
meant. -/
structure Legible (list : SlidingList) (catalog : Catalog) : Prop where
  create : ∀ value, (named list.table value list.schema).createStatement.IsLegible
  setDefault : ∀ value, (list.setDefaultStatement value).IsLegible
  detach : ∀ listing ∈ catalog.partitions list.table,
    (Sql.Statement.detachPartition list.table listing.schema listing.name).IsLegible
  detachNew : ∀ value, (named list.table value list.schema).detachStatement.IsLegible

variable {list : SlidingList} {catalog catalog' : Catalog}

/-- It is enough that no name contains a phrase of a statement, and that no schema contains a
quote or is a single dot; attached partitions may have any names. -/
theorem legible_of_isPlain (plain : list.IsPlain)
    (schemas : ∀ listing ∈ catalog.partitions list.table, Sql.IsPlainSchema listing.schema) :
    Legible list catalog where
  create value := Sql.ofSql?_createPartition plain.schema (isPlain_name_named plain.table _ _)
    plain.table value
  setDefault value := Sql.ofSql?_setDefault plain.table plain.column value
  detach listing mem := Sql.ofSql?_detachPartition plain.table (schemas listing mem)
  detachNew _ := Sql.ofSql?_detachPartition plain.table plain.schema

namespace Legible

/-- Whether a table is legible is a matter of its own partitions. -/
theorem of_agreesOn (legible : Legible list catalog) (h : catalog.AgreesOn list.table catalog') :
    Legible list catalog' :=
  ⟨legible.create, legible.setDefault,
    fun listing mem => legible.detach listing (h.partitions ▸ mem), legible.detachNew⟩

end Legible

end Partition

end Upkeep
