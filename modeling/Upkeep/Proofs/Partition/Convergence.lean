import Upkeep.Proofs.Partition.Report

/-!
# Syncs converge

A sync that succeeds leaves nothing to do to the next one, unless the application wants another
partition by then.  That is so for every catalog: whichever names, schemas and values the
partitions have, wherever the default was, and also when a statement of the first sync did nothing.

## Main Definitions

* `Undisturbed` — nothing around a sync fails.

## Main Results

* `Course.settled` — what is left by a run is as the next one wants it.
* `synced_again` — the next sync makes no statement and reports nothing.

## Design Notes

*Values alone decide.*  The first of the partitions that are left has the least value of all.  If
that is not the highest one, it was looked at by the first sync and found needed, or it comes after
one that was; so nothing that is left is retired, but for partitions that share the highest value.
-/

namespace Upkeep.Partition

open Simulation Lease

variable {list : SlidingList} {manager : Manager} {world : World} {conditions : Conditions}
  {before mid after : Catalog} {report : SyncReport} {partition : Partition}

/-- The first partition has the lowest value. -/
private theorem first_value_le {first : Partition} {others : List Partition}
    (sorted : (first :: others).Pairwise fun a b => a.value ≤ b.value)
    (mem : partition ∈ first :: others) : first.value ≤ partition.value := by
  obtain rfl | later := List.mem_cons.1 mem
  · exact Int64.le_refl _
  · exact (List.pairwise_cons.1 sorted).1 partition later

namespace Course

/-- Something is listed when it is decided what to detach. -/
theorem mid_ne_nil (course : Course conditions list before mid after report) :
    mid.partitions list.table ≠ [] := by
  obtain ⟨ps, listed, misses⟩ := course.missed
  have extended := course.prepared.partitions
  generalize report.created = created at misses extended
  cases misses with
  | @next partition =>
      have attached : (before.attach list.table partition.listing).partitions list.table ≠ [] := by
        rw [Catalog.partitions_attach_eq]
        split
        · next taken =>
            obtain ⟨listing, there, -⟩ := Catalog.isAttached_eq_true_iff.1 taken
            exact List.ne_nil_of_mem there
        · exact List.append_ne_nil_of_right_ne_nil _ (List.cons_ne_nil _ _)
      exact extended ▸ attached
  | nothing active idle =>
      obtain ⟨listing, there, -⟩ := listed.mem_iff.1 (List.mem_of_getLast? active)
      exact extended ▸ List.ne_nil_of_mem there

/-- The active partition holds the default when it is decided what to detach, so it is spared. -/
theorem exists_active (course : Course conditions list before mid after report) :
    ∃ ps last, Listed list mid ps ∧ ps.getLast? = some last ∧ DefaultsTo list mid last.value ∧
      last ∉ report.detached := by
  obtain ⟨ps, value, retired, rest, listed, reads, cut, -, detached⟩ := course.retired
  obtain ⟨last, active⟩ : ∃ last, ps.getLast? = some last := by
    obtain ⟨listing, there⟩ := List.exists_mem_of_ne_nil _ course.mid_ne_nil
    obtain ⟨partition, read⟩ := listed.reads there
    have mem := listed.mem_iff.2 ⟨listing, there, read⟩
    exact ⟨_, List.getLast?_eq_some_getLast (List.ne_nil_of_mem mem)⟩
  obtain rfl : value = last.value := course.prepared.default value ps last reads listed active
  exact ⟨ps, last, listed, active, reads, by simp [detached]⟩

/-- Partitions of distinct names stay distinct. -/
theorem isDistinct_mid (course : Course conditions list before mid after report)
    (distinct : before.IsDistinct list.table) : mid.IsDistinct list.table := by
  obtain ⟨ps, listed, misses⟩ := course.missed
  have extended := course.prepared.partitions
  rw [Catalog.IsDistinct, extended]
  generalize report.created = created at misses
  cases misses with
  | next => exact distinct.apply (.attach list.table _ _ _)
  | nothing => exact distinct

/-- Of distinct partitions, those that were not detached are left. -/
theorem mem_left (course : Course conditions list before mid after report)
    (distinct : before.IsDistinct list.table) {ps ps' : List Partition}
    (listed : Listed list mid ps) (listed' : Listed list after ps') :
    partition ∈ ps' ↔ partition ∈ ps ∧ partition ∉ report.detached := by
  obtain ⟨ps₀, value, retired, rest, listed₀, -, cut, -, detached⟩ := course.retired
  obtain rfl := listed₀.unique listed
  have former {other : Partition} (mem : other ∈ report.detached) : other ∈ ps₀ := by
    rw [detached] at mem
    refine (List.dropLast_sublist ps₀).subset ?_
    exact cut ▸ List.mem_append_left _ (List.mem_of_mem_filter mem)
  -- What has the key of a listed partition is that partition.
  have nodup : (ps₀.map fun partition => (partition.schema, partition.name)).Nodup :=
    listed.keys_perm.nodup_iff.2 (course.isDistinct_mid distinct)
  rw [listed'.mem_iff, listed.mem_iff]
  constructor
  · rintro ⟨listing, there, read⟩
    obtain ⟨there', kept⟩ := course.mem_mid.1 there
    refine ⟨⟨listing, there', read⟩, fun mem => ?_⟩
    have own := kept partition mem
    rw [(ofListing_eq_ok_iff.1 read).2] at own
    simp [isListedAs] at own
  · rintro ⟨⟨listing, there, read⟩, kept⟩
    refine ⟨listing, course.mem_mid.2 ⟨there, fun other mem => ?_⟩, read⟩
    rw [← Bool.not_eq_true]
    intro same
    have named := (ofListing_eq_ok_iff.1 read).2
    have keys : (other.schema, other.name) = (partition.schema, partition.name) := by
      simp only [isListedAs, Bool.and_eq_true, beq_iff_eq] at same
      rw [named, ← same.1, ← same.2]
    have mem' : partition ∈ ps₀ := listed.mem_iff.2 ⟨listing, there, read⟩
    obtain rfl := List.inj_on_of_nodup_map nodup (former mem) mem' keys
    exact kept mem

/-- The first of what is left has the highest value if it is retired: otherwise it was looked at,
and found needed, or it comes after a partition that was. -/
theorem value_first_of_isRetired (course : Course conditions list before mid after report)
    (distinct : before.IsDistinct list.table)
    (decided : ∀ value, conditions.isRetired value true → ¬conditions.isRetired value false)
    {ps : List Partition} {last : Partition} (listed : Listed list mid ps)
    (active : ps.getLast? = some last) {first : Partition} {others : List Partition}
    (listed' : Listed list after (first :: others))
    (isRetired : conditions.isRetired first.value true) : first.value = last.value := by
  obtain ⟨ps₀, value, retired, rest, listed₀, reads, cut, retires, detached⟩ := course.retired
  obtain rfl := listed₀.unique listed
  obtain rfl : value = last.value := course.prepared.default value ps₀ last reads listed active
  have left {partition : Partition} :
      partition ∈ first :: others ↔ partition ∈ ps₀ ∧ partition ∉ report.detached :=
    course.mem_left distinct listed listed'
  have cut' : ps₀ = (retired ++ rest) ++ [last] := by
    obtain ⟨front, rfl⟩ := List.getLast?_eq_some_iff.1 active
    rw [← cut, List.dropLast_concat]
  by_contra low
  obtain ⟨former, spared⟩ := left.1 List.mem_cons_self
  have early : first ∈ retired ++ rest := by
    refine (List.mem_append.1 (cut' ▸ former)).resolve_right fun same => low ?_
    rw [List.mem_singleton.1 same]
  obtain given | needed := List.mem_append.1 early
  · -- It was retired, and the default was not at it.
    exact spared (detached ▸ List.mem_filter.2 ⟨given, bne_iff_ne.2 low⟩)
  · -- It comes after a partition that was needed, which is left too.
    obtain ⟨head, tail, rfl⟩ := List.exists_cons_of_ne_nil (List.ne_nil_of_mem needed)
    have le : head.value ≤ first.value := by
      have sorted := listed.values_le.sublist
        (cut' ▸ (List.sublist_append_right ..).trans (List.sublist_append_left ..))
      exact first_value_le sorted needed
    have nodup : (retired ++ head :: tail).Nodup := by
      have keys := listed.keys_perm.nodup_iff.2 (course.isDistinct_mid distinct)
      have all := List.Nodup.of_map _ keys
      rw [cut'] at all
      exact all.of_append_left
    have spared' : head ∉ report.detached := fun mem => by
      rw [detached] at mem
      exact List.disjoint_of_nodup_append nodup (List.mem_of_mem_filter mem) List.mem_cons_self
    have there : head ∈ first :: others := left.2 ⟨by rw [cut']; simp, spared'⟩
    have same : first.value = head.value :=
      Int64.le_antisymm (first_value_le listed'.values_le there) le
    exact decided _ isRetired (same ▸ retires.head head rfl)

/-- **What is left by a run** is as the next one wants it. -/
theorem settled (course : Course conditions list before mid after report)
    (distinct : before.IsDistinct list.table)
    (decided : ∀ value, conditions.isRetired value true → ¬conditions.isRetired value false) :
    ∃ ps last, Listed list after ps ∧ ps.getLast? = some last ∧ DefaultsTo list after last.value ∧
      ∀ retired rest, ps.dropLast = retired ++ rest → Retires conditions retired rest →
        ∀ partition ∈ retired, partition.value = last.value := by
  obtain ⟨ps, last, listed, active, reads, spared⟩ := course.exists_active
  obtain ⟨ps', listed'⟩ : ∃ ps', Listed list after ps' :=
    ⟨_, Listed.iff_sort_readable.2
      ⟨fun listing there => listed.reads (course.mem_mid.1 there).1, rfl⟩⟩
  have left {partition : Partition} :
      partition ∈ ps' ↔ partition ∈ ps ∧ partition ∉ report.detached :=
    course.mem_left distinct listed listed'
  have mem : last ∈ ps' := left.2 ⟨List.mem_of_getLast? active, spared⟩
  obtain ⟨last', active'⟩ : ∃ last', ps'.getLast? = some last' :=
    ⟨_, List.getLast?_eq_some_getLast (List.ne_nil_of_mem mem)⟩
  have highest : last'.value = last.value :=
    Int64.le_antisymm (listed.le_getLast active (left.1 (List.mem_of_getLast? active')).1)
      (listed'.le_getLast active' mem)
  refine ⟨ps', last', listed', active', ?_, fun retired rest cut retires partition mem => ?_⟩
  · obtain ⟨expression, given, read⟩ := reads
    exact ⟨expression, course.default.trans given, highest ▸ read⟩
  · have there : partition ∈ ps' :=
      (List.dropLast_sublist ps').subset (cut ▸ List.mem_append_left _ mem)
    obtain ⟨first, others, rfl⟩ := List.exists_cons_of_ne_nil (List.ne_nil_of_mem mem)
    obtain ⟨front, rfl⟩ := List.getLast?_eq_some_iff.1 active'
    rw [List.dropLast_concat] at cut
    subst cut
    have held : first.value = last.value :=
      course.value_first_of_isRetired distinct decided listed active listed'
        (retires.retired first List.mem_cons_self)
    exact Int64.le_antisymm (listed'.le_getLast active' there)
      (highest.trans held.symm ▸ first_value_le listed'.values_le there)

end Course

/-! ### The next sync -/

/-- Nothing around a sync fails, and its statements change the catalog. -/
structure Undisturbed (manager : Manager) (list : SlidingList) (world : World) : Prop where
  applies : ∀ session, session = manager.session ∨ session = list.session →
    (world.session session).applies = true
  smooth : ∀ session, session = manager.session ∨ session = list.session →
    (world.session session).failures = []
  readable : world.hidesCatalog = false
  obtain : world.leaseFaults.obtain = false
  release : world.leaseFaults.release = false

theorem Undisturbed.hosts (quiet : Undisturbed manager list world) :
    Hosts (steady False manager list world) world :=
  ⟨quiet.applies, fun _ => rfl, fun _ => rfl, .inr quiet.smooth,
    .inr ⟨quiet.readable, quiet.obtain⟩⟩

/-- A sync that reports something found its lease free, and leaves it free. -/
theorem available_of_synced_some (hstrategy : manager.strategy = list.strategy)
    (hrelease : world.leaseFaults.release = false)
    (hreport : (synced manager world).1 = .ok (.ok (some report))) :
    Available manager.leaseKey (synced manager world).2 := by
  obtain ⟨hobtain, -⟩ := synced_some hstrategy hreport
  have free : (world.leases.obtain world.now manager.leaseKey manager.settings.lease
      ⟨world.tokensDrawn⟩).1 = true := by
    by_contra held
    have skips := synced_of_held hobtain ((Bool.not_eq_true _).mp held)
    cases hreport.symm.trans (congrArg Prod.fst skips)
  obtain ⟨result, after, hrun, -, havailable⟩ := Manager.run_sync_alone
    (Manager.onDatabase_syncLocked list hstrategy) (hstrategy ▸ list.leaseFree_strategy)
    ⟨hobtain, hrelease, Store.obtain_eq_true_iff.1 free⟩
  have hsynced : synced manager world = (.ok (result.map some), after) := hrun
  exact hsynced ▸ havailable

/-- **The next sync** makes no statement, reports nothing and leaves everything in the database
as it is, unless the application finds the active partition full. -/
theorem synced_again (hstrategy : manager.strategy = list.strategy)
    (quiet : Undisturbed manager list world) (legible : Legible list world.catalog)
    (distinct : world.catalog.IsDistinct list.table)
    (hreport : (synced manager world).1 = .ok (.ok (some report)))
    (idle : ∀ value ∈ (synced manager world).2.catalog.values list.table,
      (∀ other ∈ (synced manager world).2.catalog.values list.table, other ≤ value) →
        world.isFull value = false) :
    (synced manager (synced manager world).2).1 = .ok (.ok (some {})) ∧
      (synced manager (synced manager world).2).2.sessions = (synced manager world).2.sessions ∧
      (synced manager (synced manager world).2).2.catalog = (synced manager world).2.catalog := by
  have hm : (steady False manager list world).applies manager.session := .inl rfl
  have hl : (steady False manager list world).applies list.session := .inr rfl
  obtain ⟨hhosts, mid, course⟩ := course_of_synced hm hl hstrategy quiet.hosts legible hreport
  have havailable := available_of_synced_some hstrategy quiet.release hreport
  generalize (synced manager world).2 = after at idle hhosts course havailable ⊢
  obtain ⟨ps, last, listed, active, default, needed⟩ := course.settled distinct
    fun _ yes no => nomatch (Eq.trans yes (Eq.symm no) : true = false)
  have notFull : world.isFull last.value = false := by
    refine idle _ (listed.mem_values.2 ⟨last, List.mem_of_getLast? active, rfl⟩) fun other mem => ?_
    obtain ⟨partition, there, rfl⟩ := listed.mem_values.1 mem
    exact listed.le_getLast active there
  have hwork : Minds (steady False manager list world) list False
      (fun report after' => report = {} ∧ after' = after.catalog) (fun _ _ => False)
      manager.syncLocked after.catalog :=
    minds_syncLocked_steady hstrategy id listed active
      (fun full => Bool.false_ne_true (notFull.symm.trans (Eq.symm full))) default needed
  have hdatabase : (manager.outcome after.database).2 = after.database :=
    outcome_of_no_statement hstrategy hhosts havailable.obtain (fun _ _ _ h => h.1.elim) hwork
      fun _ _ _ h => h.1
  obtain ⟨result, after', houtcome, -, -, hend⟩ := outcome_of_keeps hstrategy hhosts
    havailable.obtain (fun _ _ _ h => h.1.elim) hwork
  obtain ⟨result', after'', hrun, houtcome', -⟩ := Manager.run_sync_alone
    (Manager.onDatabase_syncLocked list hstrategy) (hstrategy ▸ list.leaseFree_strategy) havailable
  have hsynced : synced manager after = (.ok (result'.map some), after'') := hrun
  obtain rfl : result = result' :=
    Except.ok.inj (Prod.mk.inj (houtcome.symm.trans houtcome')).1
  have hsame : after''.database = after.database :=
    (congrArg Prod.snd houtcome').symm.trans hdatabase
  match result with
  | .error error => exact hend.elim
  | .ok report =>
      obtain ⟨rfl, -⟩ := hend
      rw [hsynced]
      exact ⟨rfl, congrArg Database.sessions hsame, congrArg Database.catalog hsame⟩

/-- The small table before its first sync, when the application needs no partition any more. -/
def unneeded : World where
  isRetired := fun _ => true
  sessions := [(⟨0⟩, { applies := true })]

/-- The first sync creates a partition; the second keeps it and finds nothing to do. -/
theorem synced_again_unneeded :
    (synced itemsManager unneeded).1 =
        .ok (.ok (some { created := [named "items" 1 "partitions_dynamic"] })) ∧
      (synced itemsManager (synced itemsManager unneeded).2).1 = .ok (.ok (some {})) ∧
      (synced itemsManager (synced itemsManager unneeded).2).2.sessions =
        (synced itemsManager unneeded).2.sessions ∧
      (synced itemsManager (synced itemsManager unneeded).2).2.catalog =
        (synced itemsManager unneeded).2.catalog := by
  have hreport : (synced itemsManager unneeded).1 =
      .ok (.ok (some { created := [named "items" 1 "partitions_dynamic"] })) := by decide +kernel
  have quiet : Undisturbed itemsManager items unneeded := by
    refine ⟨?_, ?_, rfl, rfl, rfl⟩ <;> rintro session (rfl | rfl) <;> rfl
  have legible : Legible items unneeded.catalog := legible_of_isPlain isPlain_items nofun
  exact ⟨hreport, synced_again rfl quiet legible (Catalog.isDistinct_empty "items") hreport
    fun _ _ _ => rfl⟩

end Upkeep.Partition
