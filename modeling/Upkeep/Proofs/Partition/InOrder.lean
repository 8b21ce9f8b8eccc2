import Upkeep.Partition.Catalog
import Upkeep.Partition.SlidingList
import Upkeep.Proofs.Partition.Sequence
import Upkeep.Proofs.Sql.Reading

/-!
# Tables in order

When the partitions of a sliding list are in order: their bounds can be read, their names
are the ones that upkeep gives, their values are consecutive, and the default is one of
the values.  Upkeep makes four kinds of statements, each in certain catalogs only, and
each of them keeps the table in order.  To make them it takes less: a roster may have gaps,
and the default may be anything.

## Main Definitions

* `SlidingList.IsPlain` — the names in the statements of a list are read back.
* `Roster` — the attached partitions in ascending order.
* `InOrder` — the table is in order.

## Main Statements

* `Roster.sort_eq` — the roster is what a list makes of the catalog.
* `Roster.create`, `Roster.moveDefault`, `Roster.detach` — what the statements do.
* `exists_roster_iff`, `inOrder_iff` — the tables that have a roster, and those in order.

## Design Notes

The roster is a list in ascending order, while the catalog lists partitions in the order
in which they were attached; the two are related as permutations.  `InOrder` says the same
without the roster, about the catalog alone.
-/

namespace Upkeep

/-! ### Changes of the catalog -/

/-- It makes no difference whether what is dropped is dropped before or after. -/
private theorem filterMap_filter_comm {α β : Type} {list : List α} {f : α → Option β}
    {p : α → Bool} {q : β → Bool} (h : ∀ a ∈ list, ∀ b, f a = some b → p a = q b) :
    (list.filter p).filterMap f = (list.filterMap f).filter q := by
  rw [List.filterMap_filter, List.filter_filterMap]
  refine List.filterMap_congr fun a ha => ?_
  cases hf : f a with
  | none => simp
  | some b =>
      rw [h a ha b hf, Option.filter]

namespace Catalog

variable {catalog : Catalog} {table : String}

theorem isAttached_eq_true_iff {schema name : String} :
    catalog.isAttached table schema name = true ↔
      ∃ listing ∈ catalog.partitions table, listing.schema = schema ∧ listing.name = name := by
  simp only [isAttached, partitions, List.any_eq_true, List.mem_filterMap, Bool.and_eq_true,
    beq_iff_eq]
  constructor
  · rintro ⟨entry, hm, ⟨ht, hs⟩, hn⟩
    exact ⟨entry.2, ⟨entry, hm, by rw [if_pos ht]⟩, hs, hn⟩
  · rintro ⟨listing, ⟨entry, hm, hentry⟩, hs, hn⟩
    split at hentry
    · next ht =>
        obtain rfl := Option.some.inj hentry
        exact ⟨entry, hm, ⟨ht, hs⟩, hn⟩
    · cases hentry

theorem partitions_attach {listing : Listing}
    (h : catalog.isAttached table listing.schema listing.name = false) :
    (catalog.attach table listing).partitions table = catalog.partitions table ++ [listing] := by
  simp [attach, h, partitions, List.filterMap_append]

/-- Nothing is detached by attaching. -/
theorem mem_partitions_attach {listing : Listing} (h : listing ∈ catalog.partitions table)
    (other : Listing) : listing ∈ (catalog.attach table other).partitions table := by
  cases ha : catalog.isAttached table other.schema other.name with
  | true => rwa [attach, if_pos ha]
  | false => exact partitions_attach ha ▸ List.mem_append_left _ h

theorem default?_attach (table' column : String) (listing : Listing) :
    (catalog.attach table listing).default? table' column = catalog.default? table' column := by
  unfold attach
  split <;> rfl

theorem partitions_detach (schema name : String) :
    (catalog.detach table schema name).partitions table =
      (catalog.partitions table).filter fun listing =>
        !(listing.schema == schema && listing.name == name) := by
  refine filterMap_filter_comm fun entry _ listing hentry => ?_
  split at hentry
  · next ht =>
      obtain rfl := Option.some.inj hentry
      simp [ht]
  · cases hentry

theorem execute_of_none {sql : String} (h : Sql.Change.ofSql? sql = none) :
    catalog.execute sql = catalog := by
  simp [execute, h]

theorem execute_of_some {sql : String} {change : Sql.Change}
    (h : Sql.Change.ofSql? sql = some change) : catalog.execute sql = catalog.apply change := by
  simp [execute, h]

theorem mem_values {value : Int64} :
    value ∈ catalog.values table ↔
      ∃ listing ∈ catalog.partitions table,
        Partition.Condition.parse listing.condition = .ok value := by
  rw [values, List.mem_mergeSort, List.mem_filterMap]
  refine exists_congr fun listing => and_congr_right fun _ => ?_
  cases Partition.Condition.parse listing.condition <;> simp [Except.toOption]

/-- The partitions of a table whose bounds can be read. -/
def readable (catalog : Catalog) (table : String) : List Partition :=
  (catalog.partitions table).filterMap fun listing => (Partition.ofListing table listing).toOption

end Catalog

namespace Partition

variable {table : String} {listing : Listing} {partition : Partition}

theorem ofListing_eq_ok_iff :
    ofListing table listing = .ok partition ↔
      Condition.parse listing.condition = .ok partition.value ∧
        partition = ⟨table, partition.value, listing.name, listing.schema⟩ := by
  unfold ofListing
  cases hp : Condition.parse listing.condition with
  | error fault => simp
  | ok value =>
      simp only [Except.ok.injEq]
      constructor
      · rintro rfl
        exact ⟨rfl, rfl⟩
      · rintro ⟨rfl, h⟩
        exact h.symm

/-- A partition can be read if its bound can. -/
theorem exists_ofListing_iff (table : String) :
    (∃ partition, ofListing table listing = .ok partition) ↔
      ∃ value, Condition.parse listing.condition = .ok value := by
  constructor
  · rintro ⟨partition, read⟩
    exact ⟨partition.value, (ofListing_eq_ok_iff.1 read).1⟩
  · rintro ⟨value, read⟩
    exact ⟨⟨table, value, listing.name, listing.schema⟩, ofListing_eq_ok_iff.2 ⟨read, rfl⟩⟩

theorem mem_readable {catalog : Catalog} :
    partition ∈ catalog.readable table ↔
      ∃ listing ∈ catalog.partitions table, ofListing table listing = .ok partition := by
  simp only [Catalog.readable, List.mem_filterMap]
  refine exists_congr fun listing => and_congr_right fun _ => ?_
  cases ofListing table listing <;> simp [Except.toOption]

theorem table_of_mem_readable {catalog : Catalog} (hm : partition ∈ catalog.readable table) :
    partition.table = table := by
  obtain ⟨listing, -, hread⟩ := mem_readable.1 hm
  rw [(ofListing_eq_ok_iff.1 hread).2]

/-- Partitions are read together if each of them can be read. -/
theorem ofListings_eq_ok_iff {listings : List Listing} {read : List Partition} :
    SlidingList.ofListings table listings = .ok read ↔
      (∀ listing ∈ listings, ∃ partition, ofListing table listing = .ok partition) ∧
        listings.filterMap (fun listing => (ofListing table listing).toOption) = read := by
  unfold SlidingList.ofListings
  induction listings generalizing read with
  | nil =>
      refine ⟨fun h => ⟨by simp, Except.ok.inj h⟩, fun h => congrArg Except.ok h.2⟩
  | cons listing listings ih =>
      cases hp : ofListing table listing with
      | error error => simp [List.mapM_cons, hp, bind, Except.bind]
      | ok partition =>
          have hhead : (ofListing table listing).toOption = some partition := by rw [hp]; rfl
          have hsplit : List.mapM (ofListing table) (listing :: listings) =
              (List.mapM (ofListing table) listings).map (partition :: ·) := by
            rw [List.mapM_cons, hp]
            cases List.mapM (ofListing table) listings <;> rfl
          rw [hsplit, List.filterMap_cons, hhead, List.forall_mem_cons]
          cases hrest : List.mapM (ofListing table) listings with
          | error error =>
              simp only [hrest, reduceCtorEq, false_iff, not_and] at ih
              simp only [Except.map, reduceCtorEq, false_iff, not_and]
              exact fun hreads => absurd rfl (ih hreads.2)
          | ok rest =>
              obtain ⟨hreads, hfilter⟩ := ih.1 hrest
              simp only [Except.map, Except.ok.injEq, hfilter]
              exact ⟨fun h => ⟨⟨⟨partition, hp⟩, hreads⟩, h⟩, fun h => h.2⟩

/-- The values of a catalog are those of its readable partitions. -/
theorem values_perm (catalog : Catalog) (table : String) :
    (catalog.values table).Perm ((catalog.readable table).map Partition.value) := by
  refine (List.mergeSort_perm _ _).trans (List.Perm.of_eq ?_)
  rw [Catalog.readable, List.map_filterMap]
  refine congrArg (fun f => (catalog.partitions table).filterMap f) (funext fun listing => ?_)
  unfold ofListing
  cases Condition.parse listing.condition <;> rfl

/-! ### Rosters -/

namespace SlidingList

/-- The names in the statements of the list are read back. -/
structure IsPlain (list : SlidingList) : Prop where
  table : Sql.IsPlain list.table
  column : Sql.IsPlain list.column
  schema : Sql.IsPlainSchema list.schema

end SlidingList

/-- A list on a small table. -/
def items : SlidingList where
  model := ⟨"Item", "items", ["partition"]⟩
  column := "partition"
  schema := "partitions_dynamic"
  timing := .partitionDdl
  session := ⟨0⟩
  account := ⟨0⟩
  ignores_column := by decide

theorem isPlain_items : items.IsPlain :=
  ⟨by decide, by decide, ⟨by decide, by decide, by decide⟩⟩

/-- The attached partitions of a list's table in ascending order. -/
structure Roster (list : SlidingList) (catalog : Catalog) (ps : List Partition) : Prop where
  /-- Every bound can be read. -/
  reads : ∀ listing ∈ catalog.partitions list.table,
    ∃ partition, ofListing list.table listing = .ok partition
  perm : (catalog.readable list.table).Perm ps
  ascending : Ascending ps
  /-- Partitions are named after their table and their value. -/
  named : ∀ partition ∈ ps,
    partition = Partition.named list.table partition.value partition.schema
  schema : ∀ partition ∈ ps, Sql.IsPlainSchema partition.schema

namespace Roster

variable {list : SlidingList} {catalog : Catalog} {ps : List Partition}

theorem table_eq (h : Roster list catalog ps) (hm : partition ∈ ps) :
    partition.table = list.table := by
  rw [h.named partition hm]
  rfl

/-- What the catalog lists is read as the partitions of the roster. -/
theorem ofListings_eq (h : Roster list catalog ps) :
    SlidingList.ofListings list.table (catalog.partitions list.table) =
      .ok (catalog.readable list.table) :=
  ofListings_eq_ok_iff.2 ⟨h.reads, rfl⟩

/-- The roster is what a list makes of the catalog. -/
theorem sort_eq (h : Roster list catalog ps) : sort (catalog.readable list.table) = ps :=
  h.ascending.sort_eq (fun _ => h.table_eq) h.perm

/-- A catalog has one roster at most. -/
theorem unique {ps' : List Partition} (h : Roster list catalog ps)
    (h' : Roster list catalog ps') : ps = ps' :=
  h.sort_eq.symm.trans h'.sort_eq

theorem values_perm_map (h : Roster list catalog ps) :
    (catalog.values list.table).Perm (ps.map Partition.value) :=
  (values_perm catalog list.table).trans (h.perm.map _)

theorem mem_values (h : Roster list catalog ps) {value : Int64} :
    value ∈ catalog.values list.table ↔ ∃ partition ∈ ps, partition.value = value := by
  rw [h.values_perm_map.mem_iff, List.mem_map]

/-- What is attached is a partition of the roster. -/
theorem exists_partition (h : Roster list catalog ps)
    (hl : listing ∈ catalog.partitions list.table) :
    ∃ partition ∈ ps, partition.schema = listing.schema ∧ partition.name = listing.name ∧
      ofListing list.table listing = .ok partition := by
  obtain ⟨partition, hp⟩ := h.reads listing hl
  obtain ⟨-, heq⟩ := ofListing_eq_ok_iff.1 hp
  exact ⟨partition, h.perm.mem_iff.1 (mem_readable.2 ⟨listing, hl, hp⟩), by rw [heq],
    by rw [heq], hp⟩

/-- No two partitions of a roster have one name. -/
theorem eq_of_name_eq (h : Roster list catalog ps) {a b : Partition} (ha : a ∈ ps) (hb : b ∈ ps)
    (hn : a.name = b.name) : a = b := by
  refine h.ascending.eq_of_value_eq ha hb ?_
  rw [h.named a ha, h.named b hb] at hn
  exact (name_named_eq_iff.1 hn).2

end Roster

/-- The next partition to come after those of a roster. -/
structure IsNext (list : SlidingList) (ps : List Partition) (partition : Partition) : Prop where
  eq_named : partition = Partition.named list.table partition.value list.schema
  first : ps = [] → partition.value = 1
  follows : ∀ last, ps.getLast? = some last → Follows last partition

/-! ### What statements do -/

namespace Roster

variable {list : SlidingList} {catalog : Catalog} {ps : List Partition}

theorem ofSql?_createStatement (hplain : list.IsPlain) (hnext : IsNext list ps partition) :
    Sql.Change.ofSql? partition.createStatement.text =
      some (.attach list.table partition.schema partition.name
        (Sql.writtenBound partition.value)) := by
  rw [createStatement, hnext.eq_named]
  exact Sql.ofSql?_createPartition hplain.schema (isPlain_name_named hplain.table _ _)
    hplain.table _

theorem ofSql?_detachStatement (h : Roster list catalog ps) (hplain : list.IsPlain)
    (hm : partition ∈ ps) :
    Sql.Change.ofSql? partition.detachStatement.text =
      some (.detach list.table partition.schema partition.name) := by
  rw [detachStatement, h.table_eq hm]
  exact Sql.ofSql?_detachPartition hplain.table (h.schema partition hm)

theorem execute_create (catalog : Catalog) (hplain : list.IsPlain)
    (hnext : IsNext list ps partition) :
    catalog.execute partition.createStatement.text =
      catalog.attach list.table
        ⟨partition.schema, partition.name, Sql.writtenBound partition.value⟩ :=
  Catalog.execute_of_some (ofSql?_createStatement hplain hnext)

theorem execute_moveDefault (catalog : Catalog) (hplain : list.IsPlain) (value : Int64) :
    catalog.execute (list.setDefaultStatement value).text =
      catalog.setDefault list.table list.column (String.ofList (Text.ofInt64 value)) :=
  Catalog.execute_of_some (Sql.ofSql?_setDefault hplain.table hplain.column value)

theorem execute_detach (h : Roster list catalog ps) (hplain : list.IsPlain)
    (hm : partition ∈ ps) :
    catalog.execute partition.detachStatement.text =
      catalog.detach list.table partition.schema partition.name :=
  Catalog.execute_of_some (h.ofSql?_detachStatement hplain hm)

/-- Creating the next partition attaches it. -/
theorem create (h : Roster list catalog ps) (hplain : list.IsPlain)
    (hnext : IsNext list ps partition) :
    Roster list (catalog.execute partition.createStatement.text) (ps ++ [partition]) ∧
      (∀ column, (catalog.execute partition.createStatement.text).default? list.table column =
        catalog.default? list.table column) := by
  have hschema : partition.schema = list.schema := by rw [hnext.eq_named]; rfl
  have htable : partition.table = list.table := by rw [hnext.eq_named]; rfl
  have hname : partition.name = (Partition.named list.table partition.value list.schema).name :=
    congrArg Partition.name hnext.eq_named
  set listing : Listing :=
    ⟨partition.schema, partition.name, Sql.writtenBound partition.value⟩ with hlisting
  have hascending : Ascending (ps ++ [partition]) :=
    h.ascending.concat fun last hl => (hnext.follows last hl).lt
  -- A partition of that name would have that value, which is higher than all of them.
  have hnew : catalog.isAttached list.table listing.schema listing.name = false := by
    rw [← Bool.not_eq_true, Catalog.isAttached_eq_true_iff]
    rintro ⟨other, hl, -, hn⟩
    obtain ⟨attached, hm, -, hn', -⟩ := h.exists_partition hl
    have hvalue : attached.value = partition.value := by
      have heq : attached.name = partition.name := hn'.trans hn
      rw [h.named attached hm, hname] at heq
      exact (name_named_eq_iff.1 heq).2
    have hlt := (List.pairwise_append.1 hascending).2.2 attached hm partition (by simp)
    exact Int64.lt_irrefl (hvalue ▸ hlt)
  have hread : ofListing list.table listing = .ok partition := by
    refine ofListing_eq_ok_iff.2 ⟨Condition.parse_writtenBound _, ?_⟩
    rw [hlisting, ← htable]
  have hoption : (ofListing list.table listing).toOption = some partition := by rw [hread]; rfl
  rw [execute_create catalog hplain hnext]
  refine ⟨⟨?_, ?_, hascending, ?_, ?_⟩, fun column => Catalog.default?_attach _ _ _⟩
  · intro other hm
    rw [Catalog.partitions_attach hnew, List.mem_append, List.mem_singleton] at hm
    rcases hm with hm | rfl
    · exact h.reads other hm
    · exact ⟨partition, hread⟩
  · rw [Catalog.readable, Catalog.partitions_attach hnew, List.filterMap_append,
      List.filterMap_cons, hoption, List.filterMap_nil]
    exact h.perm.append_right _
  · intro other hm
    rcases List.mem_append.1 hm with hm | hm
    · exact h.named other hm
    · rw [List.mem_singleton.1 hm, hschema]
      exact hnext.eq_named
  · intro other hm
    rcases List.mem_append.1 hm with hm | hm
    · exact h.schema other hm
    · rw [List.mem_singleton.1 hm, hschema]
      exact hplain.schema

/-- Moving the default leaves the partitions alone. -/
theorem moveDefault (h : Roster list catalog ps) (hplain : list.IsPlain) (value : Int64) :
    Roster list (catalog.execute (list.setDefaultStatement value).text) ps ∧
      (catalog.execute (list.setDefaultStatement value).text).default? list.table list.column =
        some (String.ofList (Text.ofInt64 value)) := by
  rw [execute_moveDefault catalog hplain value]
  refine ⟨⟨h.reads, h.perm, h.ascending, h.named, h.schema⟩, ?_⟩
  rw [Catalog.default?_setDefault, if_pos rfl]

/-- Detaching the first partition leaves the others. -/
theorem detach (h : Roster list catalog (partition :: ps)) (hplain : list.IsPlain) :
    Roster list (catalog.execute partition.detachStatement.text) ps ∧
      (∀ column, (catalog.execute partition.detachStatement.text).default? list.table column =
        catalog.default? list.table column) := by
  rw [h.execute_detach hplain List.mem_cons_self]
  have hkept : ∀ listing ∈ catalog.partitions list.table, ∀ other,
      ofListing list.table listing = .ok other →
      ((!(listing.schema == partition.schema && listing.name == partition.name)) = true ↔
        other ≠ partition) := by
    intro listing hl other hread
    obtain ⟨other', hm, hs, hn, hread'⟩ := h.exists_partition hl
    obtain rfl : other' = other := Except.ok.inj (hread'.symm.trans hread)
    rw [Bool.not_eq_true', ← Bool.not_eq_true, Bool.and_eq_true, beq_iff_eq, beq_iff_eq, ← hs, ← hn]
    refine not_congr ⟨fun heq => h.eq_of_name_eq hm List.mem_cons_self heq.2, ?_⟩
    rintro rfl
    exact ⟨rfl, rfl⟩
  refine ⟨⟨?_, ?_, h.ascending.tail, ?_, ?_⟩, fun column => rfl⟩
  · intro listing hm
    rw [Catalog.partitions_detach] at hm
    exact h.reads listing (List.mem_filter.1 hm).1
  · have hreadable : (catalog.detach list.table partition.schema partition.name).readable
        list.table = (catalog.readable list.table).filter (· ≠ partition) := by
      rw [Catalog.readable, Catalog.partitions_detach]
      refine filterMap_filter_comm fun listing hl other hread => ?_
      obtain ⟨other', hread'⟩ := h.reads listing hl
      obtain rfl : other' = other := by
        rw [hread'] at hread
        exact Option.some.inj hread
      rw [Bool.eq_iff_iff, hkept listing hl other' hread', decide_eq_true_iff]
    have hfirst : (partition :: ps).filter (· ≠ partition) = ps := by
      have hnodup : (partition :: ps).Nodup := h.ascending.nodup_values.of_map _
      obtain ⟨hnot, -⟩ := List.nodup_cons.1 hnodup
      rw [List.filter_cons_of_neg (by simp), List.filter_eq_self]
      intro other hm
      simpa using ne_of_mem_of_not_mem hm hnot
    rw [hreadable, ← hfirst]
    exact h.perm.filter _
  · exact fun other hm => h.named other (List.mem_cons_of_mem _ hm)
  · exact fun other hm => h.schema other (List.mem_cons_of_mem _ hm)

end Roster

/-! ### Order -/

/-- The column's default is read as the value. -/
def DefaultsTo (list : SlidingList) (catalog : Catalog) (value : Int64) : Prop :=
  ∃ expression, catalog.default? list.table list.column = some expression ∧
    Condition.default? expression = some value

/-- The partitions of the list's table are named after their values, the values are
consecutive, and the default is one of them if there is one. -/
structure InOrder (list : SlidingList) (catalog : Catalog) : Prop where
  named : ∀ listing ∈ catalog.partitions list.table, ∃ value,
    Condition.parse listing.condition = .ok value ∧
      listing.name = (Partition.named list.table value listing.schema).name
  schema : ∀ listing ∈ catalog.partitions list.table, Sql.IsPlainSchema listing.schema
  consecutive : Consecutive (catalog.values list.table)
  default : ∀ expression, catalog.default? list.table list.column = some expression →
    ∃ value ∈ catalog.values list.table, Condition.default? expression = some value

variable {list : SlidingList} {catalog : Catalog} {ps : List Partition}

/-- **A table has a roster** if and only if its partitions are named after their values, and
these are distinct. -/
theorem exists_roster_iff :
    (∃ ps, Roster list catalog ps) ↔
      (∀ listing ∈ catalog.partitions list.table, ∃ value,
        Condition.parse listing.condition = .ok value ∧
          listing.name = (Partition.named list.table value listing.schema).name) ∧
      (∀ listing ∈ catalog.partitions list.table, Sql.IsPlainSchema listing.schema) ∧
      (catalog.values list.table).Nodup := by
  constructor
  · rintro ⟨ps, hroster⟩
    refine ⟨fun listing hl => ?_, fun listing hl => ?_, ?_⟩
    · obtain ⟨partition, hm, hs, hn, hread⟩ := hroster.exists_partition hl
      refine ⟨partition.value, (ofListing_eq_ok_iff.1 hread).1, ?_⟩
      rw [← hn, ← hs]
      exact congrArg Partition.name (hroster.named partition hm)
    · obtain ⟨partition, hm, hs, -⟩ := hroster.exists_partition hl
      exact hs ▸ hroster.schema partition hm
    · exact hroster.values_perm_map.nodup_iff.2 hroster.ascending.nodup_values
  · rintro ⟨hnamed, hschema, hnodup⟩
    refine ⟨sort (catalog.readable list.table), fun listing hl => ?_,
      (List.mergeSort_perm _ _).symm, ascending_sort (fun _ => table_of_mem_readable)
        ((values_perm catalog list.table).nodup_iff.1 hnodup),
      fun partition hm => ?_, fun partition hm => ?_⟩
    · obtain ⟨value, hparse, -⟩ := hnamed listing hl
      exact ⟨⟨list.table, value, listing.name, listing.schema⟩,
        ofListing_eq_ok_iff.2 ⟨hparse, rfl⟩⟩
    · obtain ⟨listing, hl, hread⟩ := mem_readable.1 (mem_sort.1 hm)
      obtain ⟨hparse, heq⟩ := ofListing_eq_ok_iff.1 hread
      obtain ⟨value, hparse', hname⟩ := hnamed listing hl
      obtain rfl : partition.value = value := Except.ok.inj (hparse.symm.trans hparse')
      rw [heq, hname]
      rfl
    · obtain ⟨listing, hl, hread⟩ := mem_readable.1 (mem_sort.1 hm)
      rw [(ofListing_eq_ok_iff.1 hread).2]
      exact hschema listing hl

/-- There are no gaps in the roster of a table in order. -/
theorem Roster.isSequence (h : Roster list catalog ps) (horder : InOrder list catalog) :
    IsSequence ps :=
  isSequence_of_consecutive h.ascending (horder.consecutive.perm h.values_perm_map)

/-- **A table is in order** if and only if it has a roster without gaps, and the default is
one of its values if there is one. -/
theorem inOrder_iff :
    InOrder list catalog ↔ ∃ ps, Roster list catalog ps ∧ IsSequence ps ∧
      (catalog.default? list.table list.column = none ∨
        ∃ partition ∈ ps, DefaultsTo list catalog partition.value) := by
  constructor
  · intro h
    obtain ⟨ps, hroster⟩ := exists_roster_iff.2 ⟨h.named, h.schema, h.consecutive.nodup⟩
    refine ⟨ps, hroster, hroster.isSequence h, ?_⟩
    cases hd : catalog.default? list.table list.column with
    | none => exact .inl rfl
    | some expression =>
        obtain ⟨value, hm, hread⟩ := h.default expression hd
        obtain ⟨partition, hp, rfl⟩ := hroster.mem_values.1 hm
        exact .inr ⟨partition, hp, expression, hd, hread⟩
  · rintro ⟨ps, hroster, hsequence, hdefault⟩
    obtain ⟨hnamed, hschema, -⟩ := exists_roster_iff.1 ⟨ps, hroster⟩
    refine ⟨hnamed, hschema, hsequence.consecutive.perm hroster.values_perm_map.symm,
      fun expression hd => ?_⟩
    rcases hdefault with hnone | ⟨partition, hm, expression', hd', hread⟩
    · rw [hnone] at hd
      cases hd
    · obtain rfl : expression' = expression := Option.some.inj (hd'.symm.trans hd)
      exact ⟨partition.value, hroster.mem_values.2 ⟨partition, hm, rfl⟩, hread⟩

end Partition

end Upkeep
