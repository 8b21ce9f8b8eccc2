import Upkeep.Proofs.Partition.Outcome

/-!
# What a report says

A sync reports what it meant to change.  What it reports as detached is gone, but a partition
that it reports as created need not be there: a table of that schema and name may have been
attached under another value, and then the statement does nothing.

## Main Definitions

* `IsActive` — a partition is attached under its value, which is the highest one and the default.
* `SyncReport.IsTruthful` — what was created is active, and what was detached is gone.

## Main Results

* `report_truthful_iff` — a report is truthful unless something else had the name of what it says
  was created.
-/

namespace Upkeep.Partition

open Simulation

variable {list : SlidingList} {manager : Manager} {world : World} {conditions : Conditions}
  {before mid after : Catalog} {report : SyncReport} {partition : Partition}

/-- The partition is attached under its value, no value is higher, and the default is at it. -/
structure IsActive (list : SlidingList) (catalog : Catalog) (partition : Partition) : Prop where
  attached : ∃ listing ∈ catalog.partitions list.table, partition.isListedAs listing = true ∧
    Condition.parse listing.condition = .ok partition.value
  highest : ∀ value ∈ catalog.values list.table, value ≤ partition.value
  default : DefaultsTo list catalog partition.value

/-- What was created is active, and nothing has the name of what was detached. -/
structure SyncReport.IsTruthful (report : SyncReport) (list : SlidingList) (catalog : Catalog) :
    Prop where
  created : ∀ partition ∈ report.created, IsActive list catalog partition
  detached : ∀ partition ∈ report.detached,
    catalog.isAttached list.table partition.schema partition.name = false

/-- Statements of a sync change the catalog if they succeed; nothing else is known. -/
def anyAnswer (manager : Manager) (list : SlidingList) : Conditions where
  failures := True
  outages := True
  isFull _ _ := True
  isRetired _ _ := True
  applies session := session = manager.session ∨ session = list.session

theorem hosts_anyAnswer (happlies : (world.session manager.session).applies = true)
    (hmoves : (world.session list.session).applies = true) :
    Hosts (anyAnswer manager list) world := by
  refine ⟨?_, fun _ => trivial, fun _ => trivial, .inl trivial, .inl trivial⟩
  rintro session (rfl | rfl)
  · exact happlies
  · exact hmoves

/-- A created partition is read as itself. -/
theorem ofListing_listing (own : partition.table = list.table) :
    ofListing list.table partition.listing = .ok partition :=
  ofListing_eq_ok_iff.2 ⟨Condition.parse_writtenBound _, by rw [← own]; rfl⟩

/-- Whatever is listed has a lower value than the next partition. -/
theorem IsNext.value_lt {ps : List Partition} (next : IsNext list ps partition)
    (listed : Listed list before ps) {other : Partition} (mem : other ∈ ps) :
    other.value < partition.value := by
  cases active : ps.getLast? with
  | none => simp [List.getLast?_eq_none_iff.1 active] at mem
  | some last =>
      exact Int64.lt_of_le_of_lt (listed.le_getLast active mem) (next.follows last active).lt

namespace Course

/-- What is left was listed when it was decided what to detach. -/
theorem mem_mid (course : Course conditions list before mid after report) {listing : Listing} :
    listing ∈ after.partitions list.table ↔ listing ∈ mid.partitions list.table ∧
      ∀ partition ∈ report.detached, partition.isListedAs listing = false := by
  rw [course.left, Catalog.partitions_detachAll, List.mem_filter]
  simp

/-- Nothing has the name of what was detached. -/
theorem detached_gone (course : Course conditions list before mid after report)
    (mem : partition ∈ report.detached) :
    after.isAttached list.table partition.schema partition.name = false := by
  rw [← Bool.not_eq_true, Catalog.isAttached_eq_true_iff]
  rintro ⟨listing, there, schema, name⟩
  have kept := (course.mem_mid.1 there).2 partition mem
  simp [isListedAs, schema, name] at kept

/-- What was created is the next partition, and the catalog lists it unless its name was
taken. -/
theorem next_of_created (course : Course conditions list before mid after report)
    (mem : partition ∈ report.created) :
    ∃ ps, Listed list before ps ∧ IsNext list ps partition ∧ mid.partitions list.table =
      if before.isAttached list.table partition.schema partition.name then
        before.partitions list.table
      else before.partitions list.table ++ [partition.listing] := by
  obtain ⟨ps, listed, misses⟩ := course.missed
  have extended := course.prepared.partitions
  generalize report.created = created at mem misses extended
  cases misses with
  | next next full =>
      obtain rfl := List.mem_singleton.1 mem
      exact ⟨ps, listed, next, extended.trans (Catalog.partitions_attach_eq _)⟩
  | nothing active idle => cases mem

/-- A partition whose name was taken is not attached under its value. -/
theorem not_isActive (course : Course conditions list before mid after report)
    (mem : partition ∈ report.created)
    (taken : before.isAttached list.table partition.schema partition.name = true) :
    ¬IsActive list after partition := by
  intro active
  obtain ⟨ps, listed, next, extended⟩ := course.next_of_created mem
  obtain ⟨listing, there, -, parsed⟩ := active.attached
  have former : listing ∈ before.partitions list.table := by
    have there' := (course.mem_mid.1 there).1
    rwa [extended, if_pos taken] at there'
  -- Everything that was listed before has a lower value.
  obtain ⟨other, read⟩ := listed.reads former
  have same : other.value = partition.value :=
    Except.ok.inj ((ofListing_eq_ok_iff.1 read).1.symm.trans parsed)
  have lower := next.value_lt listed (listed.mem_iff.2 ⟨listing, former, read⟩)
  exact Int64.lt_irrefl (same ▸ lower)

section Free

variable (course : Course conditions list before mid after report)
  (mem : partition ∈ report.created)
  (free : before.isAttached list.table partition.schema partition.name = false)
include course mem free

/-- What is listed with a created partition was listed before it. -/
theorem mem_mid_of_created {listing : Listing} : listing ∈ mid.partitions list.table ↔
    listing ∈ before.partitions list.table ∨ listing = partition.listing := by
  obtain ⟨ps, -, -, extended⟩ := course.next_of_created mem
  rw [extended, free, if_neg Bool.false_ne_true, List.mem_append, List.mem_singleton]

/-- A created partition is the active one. -/
theorem active_of_created {ps : List Partition} (listed : Listed list mid ps) :
    ps.getLast? = some partition := by
  obtain ⟨former, listed', next, -⟩ := course.next_of_created mem
  have own : partition.table = list.table := by rw [next.eq_named]; rfl
  have there : partition ∈ ps := listed.mem_iff.2
    ⟨_, (course.mem_mid_of_created mem free).2 (.inr rfl), ofListing_listing own⟩
  obtain ⟨last, active⟩ : ∃ last, ps.getLast? = some last :=
    ⟨_, List.getLast?_eq_some_getLast (List.ne_nil_of_mem there)⟩
  -- Whatever else is listed has a lower value.
  obtain ⟨listing, mem', read⟩ := listed.mem_iff.1 (List.mem_of_getLast? active)
  obtain old | rfl := (course.mem_mid_of_created mem free).1 mem'
  · have lower := next.value_lt listed' (listed'.mem_iff.2 ⟨listing, old, read⟩)
    exact absurd lower (Int64.not_lt.2 (listed.le_getLast active there))
  · exact Except.ok.inj ((ofListing_listing own).symm.trans read) ▸ active

/-- A created partition is not detached, since the default is at it: what is detached has another
value, so it was listed before, under another name. -/
theorem kept_of_created {other : Partition} (detached : other ∈ report.detached) :
    other.isListedAs partition.listing = false := by
  obtain ⟨ps, value, retired, rest, listed, reads, cut, -, report_eq⟩ := course.retired
  have active := course.active_of_created mem free listed
  obtain rfl : value = partition.value := course.prepared.default value ps _ reads listed active
  obtain ⟨former, listed', next, -⟩ := course.next_of_created mem
  have own : partition.table = list.table := by rw [next.eq_named]; rfl
  rw [report_eq, List.mem_filter, bne_iff_ne] at detached
  have there : other ∈ ps :=
    (List.dropLast_sublist ps).subset (cut ▸ List.mem_append_left _ detached.1)
  obtain ⟨listing, mem', read⟩ := listed.mem_iff.1 there
  obtain old | rfl := (course.mem_mid_of_created mem free).1 mem'
  · rw [← Bool.not_eq_true]
    intro same
    rw [(ofListing_eq_ok_iff.1 read).2] at same
    simp only [isListedAs, Partition.listing, Bool.and_eq_true, beq_iff_eq] at same
    refine Bool.false_ne_true (free.symm.trans (Catalog.isAttached_eq_true_iff.2 ?_))
    exact ⟨listing, old, same.1.symm, same.2.symm⟩
  · refine absurd (congrArg Partition.value ?_) detached.2
    exact Except.ok.inj (read.symm.trans (ofListing_listing own))

/-- A partition whose name was free is active. -/
theorem isActive : IsActive list after partition := by
  obtain ⟨ps, value, -, -, listed, reads, -, -, -⟩ := course.retired
  have active := course.active_of_created mem free listed
  obtain rfl : value = partition.value := course.prepared.default value ps _ reads listed active
  refine ⟨⟨partition.listing, course.mem_mid.2 ⟨?_, fun other => course.kept_of_created mem free⟩,
    ?_, Condition.parse_writtenBound _⟩, fun value mem' => ?_, ?_⟩
  · exact (course.mem_mid_of_created mem free).2 (.inr rfl)
  · simp [isListedAs, Partition.listing]
  · obtain ⟨listing, there, parsed⟩ := Catalog.mem_values.1 mem'
    obtain ⟨other, read⟩ := listed.reads (course.mem_mid.1 there).1
    have le := listed.le_getLast active
      (listed.mem_iff.2 ⟨listing, (course.mem_mid.1 there).1, read⟩)
    rwa [Except.ok.inj ((ofListing_eq_ok_iff.1 read).1.symm.trans parsed)] at le
  · obtain ⟨expression, given, read⟩ := reads
    exact ⟨expression, course.default.trans given, read⟩

end Free

end Course

/-- **A report is truthful** if and only if nothing had the name of what was created.  What it says
was detached is gone in any case. -/
theorem report_truthful_iff (happlies : (world.session manager.session).applies = true)
    (hmoves : (world.session list.session).applies = true)
    (hstrategy : manager.strategy = list.strategy) (legible : Legible list world.catalog)
    (hreport : (synced manager world).1 = .ok (.ok (some report))) :
    (∀ partition ∈ report.detached, (synced manager world).2.catalog.isAttached list.table
      partition.schema partition.name = false) ∧
    (report.IsTruthful list (synced manager world).2.catalog ↔ ∀ partition ∈ report.created,
      world.catalog.isAttached list.table partition.schema partition.name = false) := by
  have hm : (anyAnswer manager list).applies manager.session := .inl rfl
  have hl : (anyAnswer manager list).applies list.session := .inr rfl
  obtain ⟨-, mid, course⟩ := course_of_synced hm hl hstrategy (hosts_anyAnswer happlies hmoves)
    legible hreport
  have gone (partition : Partition) (mem : partition ∈ report.detached) :
      (synced manager world).2.catalog.isAttached list.table partition.schema partition.name =
        false :=
    course.detached_gone mem
  refine ⟨gone, fun truthful partition mem => ?_, fun free => ⟨fun partition mem => ?_, gone⟩⟩
  · rw [← Bool.not_eq_true]
    exact fun taken => course.not_isActive mem taken (truthful.created partition mem)
  · exact course.isActive mem (free partition mem)

/-- The small table with one partition, whose name is that of the next one. -/
def misnamed : World where
  catalog :=
    { attached := [("items", ⟨"partitions_dynamic", "items_2", "FOR VALUES IN ('1')"⟩)]
      defaults := [(("items", "partition"), "1")] }
  isFull := fun value => value == 1
  sessions := [(⟨0⟩, { applies := true })]

theorem legible_misnamed : Legible items misnamed.catalog :=
  legible_of_isPlain isPlain_items (List.forall_mem_singleton.2 isPlain_items.schema)

/-- The next partition is reported as created, but it is not there. -/
theorem report_untruthful_misnamed :
    (synced itemsManager misnamed).1 =
        .ok (.ok (some { created := [named "items" 2 "partitions_dynamic"] })) ∧
      ¬SyncReport.IsTruthful { created := [named "items" 2 "partitions_dynamic"] } items
        (synced itemsManager misnamed).2.catalog := by
  have hreport : (synced itemsManager misnamed).1 =
      .ok (.ok (some { created := [named "items" 2 "partitions_dynamic"] })) := by decide +kernel
  refine ⟨hreport, fun truthful => ?_⟩
  have free := (report_truthful_iff rfl rfl rfl legible_misnamed hreport).2.1 truthful _
    List.mem_cons_self
  exact absurd free (by decide)

end Upkeep.Partition
