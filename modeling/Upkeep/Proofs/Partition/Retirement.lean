import Upkeep.Proofs.Partition.RoundTrip
import Upkeep.Proofs.Simulation.Counts
import Upkeep.Proofs.Simulation.Steps

/-!
# Which partitions are given up

What a list gives up is determined by the values that are attached, by what the application says
about them, and by the default: it is the longest run of retired partitions from the lowest value
on, the highest value apart, without the partition that holds the default.

## Main Definitions

* `retiredPrefix` — the retired partitions from the lowest value on.
* `Notes` — a world that has been asked, and in which nothing else has happened.

## Main Statements

* `run_current`, `run_default`, `run_takeRetired` — what a list reads, and the world after that.
* `extra_eq_retiredPrefix` — what is given up, and what has happened then.
-/

namespace Upkeep.Partition

open Simulation

variable {list : SlidingList} {world after : World}

/-- The retired partitions from the first one on, up to one that is not retired and not including
the last of all. -/
def retiredPrefix (isRetired : Int64 → Bool) (partitions : List Partition) : List Partition :=
  partitions.dropLast.takeWhile fun partition => isRetired partition.value

/-- It is the longest of the prefixes in which all partitions are retired. -/
theorem prefix_retiredPrefix_iff {isRetired : Int64 → Bool} {partitions front : List Partition} :
    front <+: retiredPrefix isRetired partitions ↔
      front <+: partitions.dropLast ∧ ∀ partition ∈ front, isRetired partition.value = true := by
  constructor
  · intro h
    refine ⟨h.trans (List.takeWhile_prefix _), fun partition hm => ?_⟩
    exact List.all_eq_true.1 List.all_takeWhile partition (h.subset hm)
  · rintro ⟨⟨rest, hrest⟩, hretired⟩
    rw [retiredPrefix, ← hrest, List.takeWhile_append_of_pos hretired]
    exact List.prefix_append _ _

/-- Of ascending partitions, none in the prefix has the highest value. -/
theorem exists_higher {isRetired : Int64 → Bool} {partitions : List Partition}
    (h : Ascending partitions) {partition : Partition}
    (hm : partition ∈ retiredPrefix isRetired partitions) :
    ∃ other ∈ partitions, partition.value < other.value := by
  have hdrop : partition ∈ partitions.dropLast := (List.takeWhile_prefix _).subset hm
  rcases List.eq_nil_or_concat' partitions with rfl | ⟨front, last, rfl⟩
  · exact absurd hdrop List.not_mem_nil
  · rw [List.dropLast_concat] at hdrop
    exact ⟨last, by simp, (List.pairwise_append.1 h).2.2 partition hdrop last (by simp)⟩

/-! ### Reading -/

/-- What has happened since is that questions were asked. -/
def Notes (world after : World) : Prop :=
  ∃ inquiries, after = { world with inquiries := world.inquiries ++ inquiries }

theorem Notes.refl (world : World) : Notes world world := ⟨[], by simp⟩

theorem Notes.trans {mid : World} (h : Notes world mid) (h' : Notes mid after) :
    Notes world after := by
  obtain ⟨inquiries, rfl⟩ := h
  obtain ⟨inquiries', rfl⟩ := h'
  exact ⟨inquiries ++ inquiries', by simp⟩

theorem notes_note (world : World) (inquiry : Inquiry) : Notes world (world.note inquiry) :=
  ⟨[inquiry], rfl⟩

/-- The partitions that are read are in ascending order. -/
theorem run_current (hreach : world.hidesCatalog = false) {read : List Partition}
    (hread : SlidingList.ofListings list.table (world.catalog.partitions list.table) = .ok read) :
    list.current.toJob.run World.answer World.elapse world =
      (.ok (.ok (sort read)), world.note (.partitions list.table)) := by
  have hlisted : (Service.attempt (Service.ask (.listPartitions list.table)) :
      Task (List Listing)).toJob.run World.answer World.elapse world =
        (.ok (.ok (world.catalog.partitions list.table)), world.note (.partitions list.table)) := by
    refine Prod.ext (congrArg Except.ok ?_) rfl
    exact if_neg (by rw [hreach]; exact Bool.false_ne_true)
  rw [SlidingList.current, (Task.bind_of_ok hlisted).1, hread]
  rfl

/-- The default is read as its value. -/
theorem run_default (hreach : world.hidesCatalog = false) {value : Int64}
    (hdefault : DefaultsTo list world.catalog value) :
    list.default.toJob.run World.answer World.elapse world =
      (.ok (.ok value), world.note (.default list.table list.column)) := by
  obtain ⟨expression, hset, hvalue⟩ := hdefault
  have hasked : (Service.attempt (Service.ask (.readDefault list.table list.column)) :
      Task (Option String)).toJob.run World.answer World.elapse world =
        (.ok (.ok (some expression)), world.note (.default list.table list.column)) := by
    refine Prod.ext (congrArg Except.ok ?_) rfl
    refine (if_neg (by rw [hreach]; exact Bool.false_ne_true)).trans ?_
    rw [hset]
  have hread : list.default?.toJob.run World.answer World.elapse world =
      (.ok (.ok (some value)), world.note (.default list.table list.column)) := by
    rw [SlidingList.default?, (Task.bind_of_ok hasked).1]
    simp only [hvalue]
    rfl
  rw [SlidingList.default, (Task.bind_of_ok hread).1]
  rfl

/-- The application is asked about one partition after the other, until one is not retired. -/
theorem run_takeRetired (partitions : List Partition) (world : World) :
    ∃ after, (SlidingList.takeRetired partitions).run World.answer World.elapse world =
        (.ok (partitions.takeWhile fun partition => world.isRetired partition.value), after) ∧
      Notes world after := by
  induction partitions generalizing world with
  | nil => exact ⟨world, rfl, .refl world⟩
  | cons partition rest ih =>
      obtain ⟨after, hrun, hnotes⟩ := ih (world.note (.isRetired partition.value))
      have hasked : (Service.ask (.isRetired partition.value)).run World.answer World.elapse world =
          (.ok (world.isRetired partition.value), world.note (.isRetired partition.value)) := rfl
      cases hretired : world.isRetired partition.value with
      | false =>
          refine ⟨world.note (.isRetired partition.value), ?_, notes_note _ _⟩
          rw [List.takeWhile_cons_of_neg (by simp [hretired]), SlidingList.takeRetired,
            Job.bind_eq, Job.run_bind, hasked, hretired]
          rfl
      | true =>
          refine ⟨after, ?_, (notes_note _ _).trans hnotes⟩
          rw [List.takeWhile_cons_of_pos (by simp [hretired]), SlidingList.takeRetired,
            Job.bind_eq, Job.run_bind, hasked, hretired]
          simp only [if_true, Job.bind_eq, Job.run_bind, hrun]
          rfl

/-! ### Giving up -/

/-- What is given up by a list of the partitions, and what has happened then. -/
theorem run_extra (hreach : world.hidesCatalog = false) {read : List Partition} {value : Int64}
    (hread : SlidingList.ofListings list.table (world.catalog.partitions list.table) = .ok read)
    (hdefault : DefaultsTo list world.catalog value) :
    let old := retiredPrefix world.isRetired (sort read)
    ∃ after, list.extra.toJob.run World.answer World.elapse world =
        (.ok (.ok (old.filter fun partition => partition.value != value)), after) ∧
      after.sessions = world.sessions ∧ after.catalog = world.catalog ∧
      ∀ account meter, after.tally account meter = world.tally account meter +
        if account = list.account ∧ meter = .inconsistentPartitions ∧
          ∃ partition ∈ old, partition.value = value then 1 else 0 := by
  intro old
  let asked := (world.note (.partitions list.table)).note (.default list.table list.column)
  obtain ⟨after, hold, inquiries, rfl⟩ := run_takeRetired (sort read).dropLast asked
  have hretired : (Task.ofJob (SlidingList.takeRetired (sort read).dropLast)).toJob.run
      World.answer World.elapse asked =
        (.ok (.ok old), { asked with inquiries := asked.inquiries ++ inquiries }) :=
    (Task.ofJob_of_ok hold).1
  have hcurrent := run_current hreach hread
  have hreach' : (world.note (.partitions list.table)).hidesCatalog = false := hreach
  have hvalue : list.default.toJob.run World.answer World.elapse
      (world.note (.partitions list.table)) = (.ok (.ok value), asked) :=
    run_default hreach' hdefault
  rw [SlidingList.extra, (Task.bind_of_ok hcurrent).1, (Task.bind_of_ok hvalue).1,
    (Task.bind_of_ok hretired).1]
  by_cases hheld : ∃ partition ∈ old, partition.value = value
  · have hany : (old.any fun partition => partition.value == value) = true := by
      simpa [List.any_eq_true] using hheld
    rw [if_pos hany]
    refine ⟨_, rfl, rfl, rfl, fun account meter => ?_⟩
    refine (World.tally_answer (.count list.account .inconsistentPartitions 1) _ account
      meter).trans (congrArg (world.tally account meter + ·) ?_)
    exact if_congr ⟨fun h => ⟨h.1.symm, h.2.symm, hheld⟩, fun h => ⟨h.1.symm, h.2.1.symm⟩⟩ rfl rfl
  · have hany : (old.any fun partition => partition.value == value) = false := by
      simpa [List.any_eq_false] using hheld
    have hkept : (old.filter fun partition => partition.value != value) = old := by
      simpa [List.filter_eq_self] using hheld
    rw [if_neg (by rw [hany]; exact Bool.false_ne_true), hkept]
    refine ⟨_, rfl, rfl, rfl, fun account meter => ?_⟩
    rw [if_neg fun h => hheld h.2.2, UInt64.add_zero]
    rfl

/-- **What is given up** is the longest run of retired partitions from the lowest value on, the
highest value apart, without the partition that holds the default.  Neither the highest value nor
the default is ever given up, the order in which the catalog lists the partitions does not matter,
and giving up is only planned: no statement is executed, and nothing is counted unless the default
was in the way. -/
theorem extra_eq_retiredPrefix (list : SlidingList) (world : World) {value : Int64}
    (hreach : world.hidesCatalog = false)
    (hparse : ∀ listing ∈ world.catalog.partitions list.table,
      ∃ value, Condition.parse listing.condition = .ok value)
    (hdistinct : (world.catalog.values list.table).Nodup)
    (hdefault : DefaultsTo list world.catalog value) :
    ∃ ps, (world.catalog.readable list.table).Perm ps ∧ Ascending ps ∧
      let old := retiredPrefix world.isRetired ps
      let extra := old.filter fun partition => partition.value != value
      (∀ front, front <+: old ↔ front <+: ps.dropLast ∧
        ∀ partition ∈ front, world.isRetired partition.value = true) ∧
      (∀ partition ∈ extra, partition.value ≠ value ∧
        ∃ other ∈ ps, partition.value < other.value) ∧
      (∃ after, list.extra.toJob.run World.answer World.elapse world = (.ok (.ok extra), after) ∧
        after.sessions = world.sessions ∧ after.catalog = world.catalog ∧
        ∀ account meter, after.tally account meter = world.tally account meter +
          if account = list.account ∧ meter = .inconsistentPartitions ∧
            ∃ partition ∈ old, partition.value = value then 1 else 0) ∧
      ∀ other : World, other.hidesCatalog = false → other.isRetired = world.isRetired →
        (other.catalog.partitions list.table).Perm (world.catalog.partitions list.table) →
        DefaultsTo list other.catalog value → other.result list.extra = .ok (.ok extra) := by
  have hlist (catalog : Catalog) (hparse : ∀ listing ∈ catalog.partitions list.table,
      ∃ value, Condition.parse listing.condition = .ok value) :
      SlidingList.ofListings list.table (catalog.partitions list.table) =
        .ok (catalog.readable list.table) := by
    refine ofListings_eq_ok_iff.2 ⟨fun listing hm => ?_, rfl⟩
    obtain ⟨value, hvalue⟩ := hparse listing hm
    exact ⟨⟨list.table, value, listing.name, listing.schema⟩,
      ofListing_eq_ok_iff.2 ⟨hvalue, rfl⟩⟩
  have htable : ∀ partition ∈ world.catalog.readable list.table, partition.table = list.table :=
    fun _ => table_of_mem_readable
  have hascending : Ascending (sort (world.catalog.readable list.table)) :=
    ascending_sort htable ((values_perm world.catalog list.table).nodup_iff.1 hdistinct)
  refine ⟨sort (world.catalog.readable list.table), (List.mergeSort_perm _ _).symm, hascending,
    fun front => prefix_retiredPrefix_iff, fun partition hm => ?_,
    run_extra hreach (hlist _ hparse) hdefault, fun other hreach' hretired hperm hdefault' => ?_⟩
  · obtain ⟨hold, hvalue⟩ := List.mem_filter.1 hm
    exact ⟨bne_iff_ne.1 hvalue, exists_higher hascending hold⟩
  · have hsort : sort (other.catalog.readable list.table) =
        sort (world.catalog.readable list.table) := by
      refine hascending.sort_eq (fun partition hm => htable partition (mem_sort.1 hm)) ?_
      exact (hperm.filterMap _).trans (List.mergeSort_perm _ _).symm
    obtain ⟨after, hrun, -⟩ := run_extra hreach'
      (hlist _ fun listing hm => hparse listing (hperm.mem_iff.1 hm)) hdefault'
    rw [World.result, hrun, hsort, hretired]

/-- A table whose catalog lists the partitions out of order, with the default lagging behind; the
partition after the one of the default is still needed. -/
def laggingWorld : World where
  catalog :=
    { attached := [("items", ⟨"a", "items_4", "FOR VALUES IN ('4')"⟩),
        ("items", ⟨"a", "items_1", "FOR VALUES IN (1)"⟩),
        ("items", ⟨"b", "items_3", "for values in (3)"⟩),
        ("items", ⟨"a", "items_2", "FOR VALUES IN ( '2' )"⟩)]
      defaults := [(("items", "partition"), "2")] }
  isRetired value := value ≤ 2

/-- The first partition is given up, and the second one holds the default. -/
theorem extra_eq_retiredPrefix_lagging :
    (laggingWorld.catalog.values items.table).Nodup ∧ DefaultsTo items laggingWorld.catalog 2 ∧
      laggingWorld.result items.extra = .ok (.ok [⟨"items", 1, "items_1", "a"⟩]) := by
  have hreadable : laggingWorld.catalog.readable items.table =
      [⟨"items", 4, "items_4", "a"⟩, ⟨"items", 1, "items_1", "a"⟩,
        ⟨"items", 3, "items_3", "b"⟩, ⟨"items", 2, "items_2", "a"⟩] := by decide +kernel
  let sorted : List Partition := [⟨"items", 1, "items_1", "a"⟩, ⟨"items", 2, "items_2", "a"⟩,
    ⟨"items", 3, "items_3", "b"⟩, ⟨"items", 4, "items_4", "a"⟩]
  have hsorted : Ascending sorted := by decide
  have htable : ∀ partition ∈ sorted, partition.table = items.table := by decide
  have hparse : ∀ listing ∈ laggingWorld.catalog.partitions items.table,
      ∃ value, Condition.parse listing.condition = .ok value := by
    have hlistings : laggingWorld.catalog.partitions items.table =
        [⟨"a", "items_4", "FOR VALUES IN ('4')"⟩, ⟨"a", "items_1", "FOR VALUES IN (1)"⟩,
          ⟨"b", "items_3", "for values in (3)"⟩, ⟨"a", "items_2", "FOR VALUES IN ( '2' )"⟩] := by
      decide
    rw [hlistings]
    simp only [List.forall_mem_cons]
    exact ⟨⟨4, by decide⟩, ⟨1, by decide⟩, ⟨3, by decide⟩, ⟨2, by decide⟩, nofun⟩
  have hdistinct : (laggingWorld.catalog.values items.table).Nodup := by
    rw [(values_perm _ _).nodup_iff, hreadable]
    decide
  have hdefault : DefaultsTo items laggingWorld.catalog 2 := ⟨"2", by decide, by decide⟩
  obtain ⟨ps, hperm, hascending, -, -, ⟨after, hrun, -⟩, -⟩ :=
    extra_eq_retiredPrefix items laggingWorld rfl hparse hdistinct hdefault
  have hps : ps = sorted := by
    have hpartitions : ps.Perm sorted := hperm.symm.trans (hreadable ▸ by decide)
    have htable' : ∀ partition ∈ ps, partition.table = items.table :=
      fun partition hm => htable partition (hpartitions.mem_iff.1 hm)
    exact (hascending.sort_eq htable' (.refl ps)).symm.trans (hsorted.sort_eq htable hpartitions)
  subst hps
  have hextra : (retiredPrefix laggingWorld.isRetired sorted).filter
      (fun partition => partition.value != 2) = [⟨"items", 1, "items_1", "a"⟩] := by decide
  rw [hextra] at hrun
  exact ⟨hdistinct, hdefault, congrArg Prod.fst hrun⟩

end Upkeep.Partition
