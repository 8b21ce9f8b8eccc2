import Upkeep.Proofs.Job.Transcript
import Upkeep.Proofs.Partition.Legible
import Upkeep.Simulation.World

/-!
# What is written is read back

A partition that is created is listed as what it was created as, one that is detached is gone
again, and a default that is set is read as the value that it was set to.  The statements are
written by one part of upkeep, executed by a database that reads their texts, and what comes of
them is read by another part.

## Main Definitions

* `World.Carries` — a session executes a statement on the catalog, and the statement is not made
  to fail.
* `World.result` — what a task comes to in a world.
* `Catalog.Gains`, `Catalog.Sets` — one partition is new, or one default, and nothing else.
* `ReadsMore` — what is listed has one partition more.

## Main Statements

* `Catalog.detach_attach` — what was attached can be detached.
* `exists_ok_iff_of_current` — when the partitions can be listed.
* `statements_read_back` — statements do what they are written for, and nothing else.
-/

namespace Upkeep

open Simulation

/-! ### Statements that succeed -/

namespace Simulation

/-- A statement that no failure is meant for leaves the failures as they are. -/
theorem ScriptedFailure.strike_of_not_hits {sql : String} {failures : List ScriptedFailure}
    (h : ∀ scripted ∈ failures, scripted.hits sql = false) :
    strike sql failures = (none, failures) := by
  induction failures with
  | nil => rfl
  | cons scripted rest ih =>
      obtain ⟨hfirst, hrest⟩ := List.forall_mem_cons.1 h
      rw [strike, hfirst, ih hrest]
      rfl

namespace World

variable {world : World} {session : Session} {statement statement' : Sql.Statement}

/-- The statements of a session change the catalog, and this one is not made to fail. -/
structure Carries (world : World) (session : Session) (statement : Sql.Statement) : Prop where
  applies : (world.session session).applies = true
  unhindered : ∀ scripted ∈ (world.session session).failures,
    scripted.hits statement.text = false

/-- A statement that is not made to fail succeeds and is executed on the catalog, and no other
statement is made to fail after it. -/
theorem Carries.exists_execute (h : world.Carries session statement) :
    ∃ after, world.execute session statement.text = (.ok (), after) ∧
      after.catalog = world.catalog.execute statement.text ∧
      after.hidesCatalog = world.hidesCatalog ∧
      ∀ statement', world.Carries session statement' → after.Carries session statement' := by
  let state := world.session session
  let remembered := { state with statements := state.statements ++ [statement.text] }
  let after : World :=
    { world.setSession session remembered with catalog := world.catalog.execute statement.text }
  have hafter : after.session session = remembered := by
    simp only [after, World.session, World.setSession, Assoc.lookup_put, beq_self_eq_true,
      if_true, Option.getD_some]
  refine ⟨after, ?_, rfl, rfl, fun statement' h' => ⟨?_, ?_⟩⟩
  · simp only [World.execute, ScriptedFailure.strike_of_not_hits h.unhindered, if_pos h.applies]
    rfl
  · rw [hafter]
    exact h'.applies
  · rw [hafter]
    exact h'.unhindered

/-- What a task comes to in a world where it runs alone. -/
def result {α : Type} (world : World) (task : Task α) :
    Except Interruption (Except Error α) :=
  (task.toJob.run World.answer World.elapse world).1

end World

end Simulation

/-! ### Changes of the catalog -/

namespace Catalog

variable {catalog : Catalog} {table : String}

/-- One partition was attached to its table, and nothing else has changed. -/
structure Gains (before : Catalog) (partition : Partition) (after : Catalog) : Prop where
  attached : ∃ listing, after.partitions partition.table =
      before.partitions partition.table ++ [listing] ∧
    Partition.ofListing partition.table listing = .ok partition
  tables : ∀ table ≠ partition.table, after.partitions table = before.partitions table
  defaults : after.default? = before.default?

/-- The default of one column was set, and nothing else has changed. -/
structure Sets (before : Catalog) (table column : String) (after : Catalog) : Prop where
  defaults : ∀ table' column', (table', column') ≠ (table, column) →
    after.default? table' column' = before.default? table' column'
  partitions : after.partitions = before.partitions

/-- **Detaching undoes attaching** what was not attached before. -/
theorem detach_attach {listing : Listing}
    (h : catalog.isAttached table listing.schema listing.name = false) :
    (catalog.attach table listing).detach table listing.schema listing.name = catalog := by
  have hkept : catalog.attached.filter (fun entry => !(entry.1 == table &&
      entry.2.schema == listing.schema && entry.2.name == listing.name)) = catalog.attached := by
    rw [List.filter_eq_self]
    intro entry hm
    have hother := List.any_eq_false.1 h entry hm
    rw [Bool.not_eq_true] at hother
    rw [hother, Bool.not_false]
  rw [attach, h, if_neg Bool.false_ne_true, detach]
  simp only [List.filter_append, hkept, List.filter_cons, beq_self_eq_true, Bool.and_self,
    Bool.not_true, List.filter_nil, Bool.false_eq_true, if_false, List.append_nil]

/-- What is attached is new, and nothing else has changed. -/
theorem gains_attach {listing : Listing} {partition : Partition}
    (hfresh : catalog.isAttached partition.table listing.schema listing.name = false)
    (hread : Partition.ofListing partition.table listing = .ok partition) :
    catalog.Gains partition (catalog.attach partition.table listing) where
  attached := ⟨listing, partitions_attach hfresh, hread⟩
  tables table hne := by
    let change : Sql.Change :=
      .attach partition.table listing.schema listing.name listing.condition
    have hother : change.table ≠ table := hne.symm
    exact (agreesOn_apply_of_ne hother).partitions
  defaults := funext fun table => funext fun column => default?_attach table column listing

/-- One default is set, and nothing else has changed. -/
theorem sets_setDefault (table column expression : String) :
    catalog.Sets table column (catalog.setDefault table column expression) where
  defaults table' column' hne := by rw [default?_setDefault, if_neg hne]
  partitions := rfl

end Catalog

namespace Partition

variable {list : SlidingList} {world : World} {partition : Partition}

/-- What is listed has one partition more, which was not listed before; if the partitions could not
be listed then they still cannot be, for the same reason. -/
def ReadsMore (partition : Partition) :
    Except Error (List Partition) → Except Error (List Partition) → Prop
  | .ok before, .ok after => partition ∉ before ∧ after.Perm (partition :: before)
  | .error before, .error after => after = before
  | _, _ => False

/-! ### Reading -/

/-- What is listed in a world. -/
theorem result_current (list : SlidingList) (world : World) :
    world.result list.current = .ok (
      if world.hidesCatalog then .error (World.unreadable list.table)
      else ((SlidingList.ofListings list.table (world.catalog.partitions list.table)).map
        sort).mapError .partitioning) := by
  have hasked : (((Service.attempt (Service.ask (.listPartitions list.table)) :
      Task (List Listing)).toJob.run World.answer World.elapse world).1) =
        .ok (world.listPartitions list.table) := rfl
  rw [World.listPartitions] at hasked
  rw [World.result, SlidingList.current]
  cases hhides : world.hidesCatalog with
  | true =>
      rw [hhides, if_pos rfl] at hasked
      exact (Task.run_bind_of_error _ hasked).1
  | false =>
      rw [hhides, if_neg Bool.false_ne_true] at hasked
      rw [(Task.run_bind_of_ok _ hasked).1, if_neg Bool.false_ne_true]
      cases SlidingList.ofListings list.table (world.catalog.partitions list.table) <;> rfl

/-- **What can be listed**: the partitions are listed as long as the catalog can be read and all
bounds in it are bounds of one number. -/
theorem exists_ok_iff_of_current {before : Except Error (List Partition)}
    (h : world.result list.current = .ok before) :
    (∃ ps, before = .ok ps) ↔ world.hidesCatalog = false ∧
      ∀ listing ∈ world.catalog.partitions list.table,
        ∃ value, Condition.parse listing.condition = .ok value := by
  obtain rfl := Except.ok.inj ((result_current list world).symm.trans h)
  simp only [← exists_ofListing_iff list.table]
  cases world.hidesCatalog with
  | true => simp
  | false =>
      rw [if_neg Bool.false_ne_true]
      cases read : SlidingList.ofListings list.table (world.catalog.partitions list.table) with
      | ok partitions =>
          exact iff_of_true ⟨sort partitions, rfl⟩ ⟨rfl, (ofListings_eq_ok_iff.1 read).1⟩
      | error error =>
          refine iff_of_false nofun fun readable => ?_
          have listed := ofListings_eq_ok_iff.2 ⟨readable.2, rfl⟩
          cases read.symm.trans listed

/-- What the default of the column is read as in a world. -/
theorem result_default? (list : SlidingList) {world : World} {expression : String} {value : Int64}
    (hset : world.catalog.default? list.table list.column = some expression)
    (hread : Condition.default? expression = some value) :
    world.result list.default? = .ok (
      if world.hidesCatalog then .error (World.unreadable list.table) else .ok (some value)) := by
  have hasked : (((Service.attempt (Service.ask (.readDefault list.table list.column)) :
      Task (Option String)).toJob.run World.answer World.elapse world).1) =
        .ok (world.readDefault list.table list.column) := rfl
  rw [World.readDefault, hset] at hasked
  rw [World.result, SlidingList.default?]
  cases hhides : world.hidesCatalog with
  | true =>
      rw [hhides, if_pos rfl] at hasked
      exact (Task.run_bind_of_error _ hasked).1
  | false =>
      rw [hhides, if_neg Bool.false_ne_true] at hasked
      rw [(Task.run_bind_of_ok _ hasked).1, if_neg Bool.false_ne_true]
      simp only [hread]
      rfl

/-- The listing of a new partition is read last. -/
theorem ofListings_append {table : String} {listing : Listing} (listings : List Listing)
    (hread : ofListing table listing = .ok partition) :
    SlidingList.ofListings table (listings ++ [listing]) =
      (SlidingList.ofListings table listings).map (· ++ [partition]) := by
  rw [SlidingList.ofListings, SlidingList.ofListings, List.mapM_append]
  cases List.mapM (ofListing table) listings with
  | error error => rfl
  | ok read =>
      simp only [List.mapM_cons, List.mapM_nil, hread]
      rfl

/-- One partition more is read from one listing more, if no other has its schema and name. -/
theorem readsMore_append {table : String} {listing : Listing} {listings : List Listing}
    (hfresh : ∀ other ∈ listings, ¬(other.schema = listing.schema ∧ other.name = listing.name))
    (hread : ofListing table listing = .ok partition) :
    ReadsMore partition
      (((SlidingList.ofListings table listings).map sort).mapError .partitioning)
      (((SlidingList.ofListings table (listings ++ [listing])).map sort).mapError
        .partitioning) := by
  rw [ofListings_append listings hread]
  cases hbefore : SlidingList.ofListings table listings with
  | error error => exact rfl
  | ok read =>
      obtain ⟨-, rfl⟩ := ofListings_eq_ok_iff.1 hbefore
      refine ⟨fun hm => ?_, ?_⟩
      · obtain ⟨other, hother, hsame⟩ := List.mem_filterMap.1 (mem_sort.1 hm)
        have hother' : ofListing table other = .ok partition := by
          cases hp : ofListing table other with
          | error error => simp [hp, Except.toOption] at hsame
          | ok read => simpa [hp, Except.toOption] using hsame
        have hlisted := (ofListing_eq_ok_iff.1 hread).2
        have hlisted' := (ofListing_eq_ok_iff.1 hother').2
        refine hfresh other hother ⟨?_, ?_⟩
        · exact (congrArg schema hlisted').symm.trans (congrArg schema hlisted)
        · exact (congrArg name hlisted').symm.trans (congrArg name hlisted)
      · exact (List.mergeSort_perm _ _).trans
          ((List.perm_append_singleton _ _).trans ((List.mergeSort_perm _ _).symm.cons _))

/-! ### Writing and reading -/

/-- **What is written is what is read back**, as long as the names contain no phrase of a
statement and the schema has no quotes and is no single dot: they may contain quotes, dots and
blanks.  A created partition is listed as exactly one more, and once it is detached the catalog
is what it was before; a default that is set is read as the value it is set to.  Nothing else in
the catalog changes.  The partitions are listed exactly if the catalog can be read and all their
bounds are bounds of one number, and creating a partition makes no difference to that. -/
theorem statements_read_back (list : SlidingList) {schema : String} (value : Int64)
    (htable : Sql.IsPlain list.table) (hcolumn : Sql.IsPlain list.column)
    (hschema : Sql.IsPlainSchema schema) (world : World) (session : Session) :
    let partition := named list.table value schema
    (world.Carries session partition.createStatement →
      world.Carries session partition.detachStatement →
      world.catalog.isAttached list.table schema partition.name = false →
      ∃ created before after,
        world.execute session partition.createStatement.text = (.ok (), created) ∧
        world.result list.current = .ok before ∧
        created.result list.current = .ok after ∧
        ((∃ ps, before = .ok ps) ↔ world.hidesCatalog = false ∧
          ∀ listing ∈ world.catalog.partitions list.table,
            ∃ value, Condition.parse listing.condition = .ok value) ∧
        ReadsMore partition before after ∧
        world.catalog.Gains partition created.catalog ∧
        ∃ detached,
          created.execute session partition.detachStatement.text = (.ok (), detached) ∧
          detached.result list.current = .ok before ∧
          detached.catalog = world.catalog) ∧
      (world.Carries session (list.setDefaultStatement value) →
        ∃ settled,
          world.execute session (list.setDefaultStatement value).text = (.ok (), settled) ∧
          settled.result list.default? = .ok (
            if world.hidesCatalog then .error (World.unreadable list.table)
            else .ok (some value)) ∧
          world.catalog.Sets list.table list.column settled.catalog) := by
  intro partition
  refine ⟨fun hcreate hdetach hfresh => ?_, fun hset => ?_⟩
  · let listing : Listing := ⟨schema, partition.name, Sql.writtenBound value⟩
    have hread : ofListing list.table listing = .ok partition :=
      ofListing_eq_ok_iff.2 ⟨Condition.parse_writtenBound value, rfl⟩
    have hattached : world.catalog.execute partition.createStatement.text =
        world.catalog.attach list.table listing :=
      Catalog.execute_of_some
        (Sql.ofSql?_createPartition hschema (isPlain_name_named htable value schema) htable value)
    have hdetached (catalog : Catalog) : catalog.execute partition.detachStatement.text =
        catalog.detach list.table schema partition.name :=
      Catalog.execute_of_some (Sql.ofSql?_detachPartition htable hschema)
    obtain ⟨created, hcreated, hcatalog, hhides, hcarries⟩ := hcreate.exists_execute
    obtain ⟨detached, hgone, hcatalog', hhides', -⟩ := (hcarries _ hdetach).exists_execute
    have hback : detached.catalog = world.catalog := by
      rw [hcatalog', hdetached, hcatalog, hattached]
      exact Catalog.detach_attach hfresh
    refine ⟨created, _, _, hcreated, result_current list world, result_current list created,
      exists_ok_iff_of_current (result_current list world), ?_, ?_, detached, hgone, ?_, hback⟩
    · rw [hhides]
      cases world.hidesCatalog with
      | true => exact rfl
      | false =>
          rw [if_neg Bool.false_ne_true, if_neg Bool.false_ne_true, hcatalog, hattached,
            Catalog.partitions_attach hfresh]
          refine readsMore_append (fun other hm hsame => ?_) hread
          have htaken := Catalog.isAttached_eq_true_iff.2 ⟨other, hm, hsame⟩
          exact Bool.false_ne_true (hfresh.symm.trans htaken)
    · rw [hcatalog, hattached]
      exact Catalog.gains_attach hfresh hread
    · rw [result_current, hhides'.trans hhides, hback]
  · have hchanged : world.catalog.execute (list.setDefaultStatement value).text =
        world.catalog.setDefault list.table list.column (String.ofList (Text.ofInt64 value)) :=
      Catalog.execute_of_some (Sql.ofSql?_setDefault htable hcolumn value)
    obtain ⟨settled, hsettled, hcatalog, hhides, -⟩ := hset.exists_execute
    rw [hchanged] at hcatalog
    refine ⟨settled, hsettled, ?_, ?_⟩
    · rw [← hhides]
      refine result_default? list ?_ (Condition.default?_ofInt64 value)
      rw [hcatalog, Catalog.default?_setDefault, if_pos rfl]
    · rw [hcatalog]
      exact Catalog.sets_setDefault _ _ _

/-- A list whose names have quotes, dots and blanks in them. -/
def quotedItems : SlidingList where
  model := ⟨"Item", "it\"e.\"m s", ["a \"part\""]⟩
  column := "a \"part\""
  schema := "partitions_dynamic"
  timing := .partitionDdl
  session := ⟨0⟩
  account := ⟨0⟩
  ignores_column := by decide

/-- A database with two tables, in which the statements of another session are made to fail. -/
def quotedWorld : World where
  catalog :=
    { attached := [("it\"e.\"m s", ⟨"old. schema", "it\"e.\"m s_-9223372036854775808",
          "FOR VALUES IN ('7')"⟩),
        ("items", ⟨"new. schema", "it\"e.\"m s_-9223372036854775808", "FOR VALUES IN (1)"⟩)]
      defaults := [(("items", "a \"part\""), "1")] }
  sessions := [(⟨0⟩, { applies := true }),
    (⟨1⟩, { applies := true, failures := [⟨"PARTITION", none, .lockTimeout "busy"⟩] })]

/-- The least of all values, names with quotes, and a schema with a dot and a blank.  The table has
a partition of that name already, in another schema and of another value, and after the new one was
created both are listed. -/
theorem statements_read_back_quoted :
    let listed : Partition :=
      ⟨quotedItems.table, 7, "it\"e.\"m s_-9223372036854775808", "old. schema"⟩
    let partition := named quotedItems.table Int64.minValue "new. schema"
    Sql.IsPlain quotedItems.table ∧ Sql.IsPlain quotedItems.column ∧
      Sql.IsPlainSchema "new. schema" ∧
      ∃ created after detached settled,
        quotedWorld.execute ⟨0⟩ partition.createStatement.text = (.ok (), created) ∧
        quotedWorld.result quotedItems.current = .ok (.ok [listed]) ∧
        created.result quotedItems.current = .ok (.ok after) ∧
        after.Perm [partition, listed] ∧
        created.execute ⟨0⟩ partition.detachStatement.text = (.ok (), detached) ∧
        detached.result quotedItems.current = .ok (.ok [listed]) ∧
        detached.catalog = quotedWorld.catalog ∧
        quotedWorld.execute ⟨0⟩ (quotedItems.setDefaultStatement Int64.minValue).text =
          (.ok (), settled) ∧
        settled.result quotedItems.default? = .ok (.ok (some Int64.minValue)) := by
  intro listed partition
  have htable : Sql.IsPlain quotedItems.table := by decide
  have hcolumn : Sql.IsPlain quotedItems.column := by decide
  have hschema : Sql.IsPlainSchema "new. schema" := ⟨by decide, by decide, by decide⟩
  have hcarries (statement : Sql.Statement) : quotedWorld.Carries ⟨0⟩ statement :=
    ⟨rfl, fun _ hm => absurd hm List.not_mem_nil⟩
  have hlisted : quotedWorld.result quotedItems.current = .ok (.ok [listed]) := by
    rw [result_current]
    decide +kernel
  have hboth := statements_read_back quotedItems Int64.minValue htable hcolumn hschema
    quotedWorld ⟨0⟩
  obtain ⟨created, before, after, hcreated, hbefore, hafter, -, hmore, -, detached, hdetached,
    hgone, hback⟩ := hboth.1 (hcarries _) (hcarries _) (by decide +kernel)
  obtain ⟨settled, hsettled, hdefault, -⟩ := hboth.2 (hcarries _)
  obtain rfl := Except.ok.inj (hlisted.symm.trans hbefore)
  match after with
  | .ok after =>
      exact ⟨htable, hcolumn, hschema, created, after, detached, settled, hcreated, hlisted, hafter,
        hmore.2, hdetached, hgone, hback, hsettled, hdefault⟩
  | .error error => exact hmore.elim

end Partition

end Upkeep
