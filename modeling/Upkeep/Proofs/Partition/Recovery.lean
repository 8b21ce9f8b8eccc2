import Upkeep.Proofs.Partition.Repair

/-!
# Recovery of a table with a default

A table may be in any disorder that upkeep can read: its values have gaps, and its default
is at an old partition or at none at all.  Sync after sync may be stopped by a failure at
any of its statements.  The first sync in which nothing fails leaves the default at the
highest value and nothing to detach, unless there is no value left for the partition that
it has to create.

## Main Definitions

* `Serviceable` — the partitions are named after distinct values, and there is a default.
* `Recoverable` — a serviceable table in a world in which at most statements fail.
* `Recess`, `afterwards` — what may change between two syncs, and the world after them.
* `Exhausted` — a partition is wanted for which there is no value.

## Main Statements

* `Recoverable.synced`, `Recoverable.afterwards` — no sync makes a table unrecoverable.
* `syncs_recover` — the sync after all that.

## Design Notes

The state of the table between two syncs is told without its history.  A sync that fails
leaves the default where it was or moves it to the last partition, so that there still is
one, and creates the next partition or none, so that the values still differ: this is all
that the next sync needs.
-/

namespace Upkeep

open Simulation

/-- A count is affected by its own meter only. -/
theorem Metrics.inconsistentPartitions_add (metrics : Metrics) (n : UInt64) {meter : Meter}
    (h : meter ≠ .inconsistentPartitions) :
    (metrics.add n meter).inconsistentPartitions = metrics.inconsistentPartitions := by
  cases meter with
  | inconsistentPartitions => exact absurd rfl h
  | _ => rfl

namespace Simulation.World

/-- An account has the counts that it was last set to, and no other is affected. -/
theorem account_setAccount (world : World) (account account' : Account) (metrics : Metrics) :
    (world.setAccount account metrics).account account' =
      if account' = account then metrics else world.account account' := by
  simp only [World.account, World.setAccount, Assoc.lookup_put, beq_iff_eq]
  split <;> rfl

end Simulation.World

namespace Partition

open Lease

variable {list : SlidingList} {manager : Manager} {world : World} {conditions : Conditions}
  {ps : List Partition} {value? : Option Int64}

/-! ### Inconsistencies -/

/-- No inconsistent partition was counted from one world to a later one. -/
def NoneInconsistent (world after : World) : Prop :=
  ∀ account, (after.account account).inconsistentPartitions =
    (world.account account).inconsistentPartitions

theorem noneInconsistent_answer {catalog : Catalog} {r : Service.Request}
    (hr : Permits conditions list catalog r) (world : World) :
    NoneInconsistent world (world.answer r).2 := by
  intro account
  by_cases hcount : ∃ account' meter n, r = .count account' meter n
  · obtain ⟨account', meter, n, rfl⟩ := hcount
    have hmeter : meter ≠ .inconsistentPartitions := hr
    simp only [World.answer, World.account_setAccount]
    split
    · next heq => rw [Metrics.inconsistentPartitions_add _ _ hmeter, heq]
    · rfl
  · push Not at hcount
    simp only [World.account, (World.frame_answer r world).accounts hcount]

variable (conditions) in
/-- A sync that runs alone on a table with a roster counts no inconsistent partition. -/
theorem noneInconsistent_synced (hm : conditions.applies manager.session)
    (hl : conditions.applies list.session) (hstrategy : manager.strategy = list.strategy)
    (hplain : list.IsPlain) (h : Hosts conditions world) (roster : Roster list world.catalog ps)
    (hvalue : ReadsDefault list world.catalog value?) :
    NoneInconsistent world (synced manager world).2 := by
  have hsync := h.keeps (upholds_sync conditions hm hl hstrategy hplain roster hvalue)
  refine Job.preserved_of_keeps hsync (fun before r hr hbefore => ?_) (fun _ _ hbefore => hbefore)
    fun _ => rfl
  exact fun account => (noneInconsistent_answer hr.2 before account).trans (hbefore account)

/-! ### Tables with a default -/

/-- The partitions of the list's table are named after their values, these are distinct, and
there is a default, which need not be one of them. -/
structure Serviceable (list : SlidingList) (catalog : Catalog) : Prop where
  named : ∀ listing ∈ catalog.partitions list.table, ∃ value,
    Condition.parse listing.condition = .ok value ∧
      listing.name = (Partition.named list.table value listing.schema).name
  schema : ∀ listing ∈ catalog.partitions list.table, Sql.IsPlainSchema listing.schema
  nodup : (catalog.values list.table).Nodup
  default : ∃ value, DefaultsTo list catalog value

theorem serviceable_iff {catalog : Catalog} :
    Serviceable list catalog ↔
      (∃ ps, Roster list catalog ps) ∧ ∃ value, DefaultsTo list catalog value := by
  rw [exists_roster_iff]
  constructor
  · exact fun h => ⟨⟨h.named, h.schema, h.nodup⟩, h.default⟩
  · exact fun ⟨⟨hnamed, hschema, hnodup⟩, hdefault⟩ => ⟨hnamed, hschema, hnodup, hdefault⟩

/-- Whatever a run leaves behind, the table is still serviceable. -/
theorem Within.serviceable {before after : Catalog} (h : Within list before ps after)
    (hbefore : Serviceable list before) : Serviceable list after := by
  cases h with
  | same heq => exact heq ▸ hbefore
  | extended next roster default =>
      obtain ⟨value, expression, hd, hread⟩ := hbefore.default
      exact serviceable_iff.2 ⟨⟨_, roster⟩, value, expression, default.trans hd, hread⟩
  | settled extends_ suffix_ settled =>
      obtain ⟨last, -, hdefault⟩ := settled.default
      exact serviceable_iff.2 ⟨⟨_, settled.roster⟩, last.value, hdefault⟩

/-- A table with a default, in a world in which at most statements fail. -/
structure Recoverable (manager : Manager) (list : SlidingList) (world : World) : Prop where
  serviceable : Serviceable list world.catalog
  applies : (world.session manager.session).applies = true
  moves : (world.session list.session).applies = true
  readable : world.hidesCatalog = false
  available : Available manager.leaseKey world

/-- What may change between two syncs: anything but the catalog, and what makes upkeep
possible. -/
structure Recess extends Interlude where
  readable_change : ∀ world, world.hidesCatalog = false → (change world).hidesCatalog = false
  available_change : ∀ key world, Available key world → Available key (change world)

/-- The world after one sync after the other, each after a recess. -/
def afterwards (manager : Manager) : List Recess → World → World
  | [], world => world
  | recess :: recesses, world =>
      afterwards manager recesses (synced manager (recess.change world)).2

namespace Recoverable

theorem hosts (h : Recoverable manager list world) :
    Hosts (steady True manager list world) world :=
  hosts_steady h.applies h.moves h.readable h.available.obtain

theorem recess (h : Recoverable manager list world) (recess : Recess) :
    Recoverable manager list (recess.change world) where
  serviceable := (recess.catalog_change world).symm ▸ h.serviceable
  applies := (recess.applies_change world _).trans h.applies
  moves := (recess.applies_change world _).trans h.moves
  readable := recess.readable_change world h.readable
  available := recess.available_change _ world h.available

/-- **A sync leaves a recoverable table recoverable**, whichever of its statements fails. -/
theorem synced (h : Recoverable manager list world) (hstrategy : manager.strategy = list.strategy)
    (hplain : list.IsPlain) : Recoverable manager list (synced manager world).2 := by
  obtain ⟨⟨ps, roster⟩, value, hdefault⟩ := serviceable_iff.1 h.serviceable
  have hvalue : ReadsDefault list world.catalog (some value) := hdefault
  obtain ⟨hhosts, havailable, hend⟩ := synced_of_hosts (steady True manager list world) (.inl rfl)
    (.inr rfl) hstrategy hplain h.hosts h.available roster hvalue
  have hwithin : Within list world.catalog ps (Partition.synced manager world).2.catalog :=
    hend.elim (fun ⟨_, _, hsucceeds⟩ => hsucceeds.within) fun ⟨_, _, hfails⟩ => hfails.within
  exact ⟨hwithin.serviceable h.serviceable, hhosts.applies _ (.inl rfl),
    hhosts.applies _ (.inr rfl), (hhosts.reachable.resolve_left id).1, havailable⟩

/-- **Any number of syncs** leaves a recoverable table recoverable. -/
theorem afterwards (h : Recoverable manager list world)
    (hstrategy : manager.strategy = list.strategy) (hplain : list.IsPlain)
    (recesses : List Recess) : Recoverable manager list (afterwards manager recesses world) := by
  -- The invariant is that the table is recoverable; nothing that was done before is needed.
  induction recesses generalizing world with
  | nil => exact h
  | cons recess recesses ih => exact ih ((h.recess recess).synced hstrategy hplain)

end Recoverable

/-! ### The sync after all -/

/-- The highest value of all is taken, and the application wants a partition after it. -/
def Exhausted (list : SlidingList) (world : World) : Prop :=
  Int64.maxValue ∈ world.catalog.values list.table ∧ world.isFull Int64.maxValue = true

/-- If the highest value of all is taken, then by the last partition. -/
private theorem value_getLast (roster : Roster list world.catalog ps)
    (h : Int64.maxValue ∈ world.catalog.values list.table) :
    ∃ last, ps.getLast? = some last ∧ last.value = Int64.maxValue := by
  obtain ⟨partition, hm, hv⟩ := roster.mem_values.1 h
  have hl := List.getLast?_eq_some_getLast (List.ne_nil_of_mem hm)
  refine ⟨_, hl, Int64.le_antisymm (Int64.le_maxValue _) ?_⟩
  exact hv ▸ roster.ascending.le_getLast hl hm

private theorem not_faults_steady : ¬(steady False manager list world).faults :=
  fun hfaults => hfaults.elim id id

/-- After a sync that succeeds there is nothing to detach. -/
private theorem extra_eq_nil {before : Catalog} {after : World}
    (hhosts : Hosts (steady False manager list world) after)
    (h : Succeeds (steady False manager list world) list before ps after.catalog) :
    (list.extra.toJob.run World.answer World.elapse after).1 = .ok (.ok []) := by
  obtain ⟨all, left, -, -, hsettled⟩ := h.settled
  have hextra : Upholds (steady False manager list world) list (fun extra _ => extra = [])
      (fun _ _ => False) list.extra after.catalog := by
    refine upholds_extra hsettled (fun hfaults => absurd hfaults not_faults_steady) ?_
    rintro retired rest rfl hne hretires
    match retired with
    | [] => rfl
    | first :: retired =>
        -- The first partition was needed when the sync asked for it, and still is.
        have hhead : (first :: (retired ++ rest)).dropLast.head? = some first := by
          rw [List.dropLast_cons_of_ne_nil (List.append_ne_nil_of_right_ne_nil _ hne)]
          rfl
        have hneeded : false = world.isRetired first.value := h.trimmed _ hsettled first hhead
        have hretired : true = world.isRetired first.value :=
          hretires.retired first List.mem_cons_self
        cases hneeded.trans hretired.symm
  have hend := Job.run_of_keeps (hhosts.keeps hextra)
  generalize Job.run World.answer World.elapse list.extra.toJob after = outcome at hend
  obtain ⟨result, final⟩ := outcome
  match result with
  | .error why => exact hend.2.elim
  | .ok (.error error) => exact hend.2.elim
  | .ok (.ok extra) =>
      obtain rfl : extra = [] := hend.2
      rfl

/-- A sync that succeeds was not short of values. -/
private theorem not_exhausted {after : Catalog} (roster : Roster list world.catalog ps)
    (h : Succeeds (steady False manager list world) list world.catalog ps after) :
    ¬Exhausted list world := by
  rintro ⟨htaken, hfull⟩
  obtain ⟨last, hl, hv⟩ := value_getLast roster htaken
  rcases h.room last hl with hidle | ⟨next, hnext⟩
  · have hidle : false = world.isFull last.value := hidle
    cases (hv ▸ hidle).trans hfull
  · rw [nextValue?_eq_none_iff.2 hv] at hnext
    cases hnext

/-- With a default, a sync is stuck only if it is short of values. -/
private theorem exhausted_of_stuck {error : Error} (roster : Roster list world.catalog ps)
    {value : Int64} (hdefault : DefaultsTo list world.catalog value)
    (h : Stuck (steady False manager list world) list world.catalog ps error) :
    error = .partitioning (.valueOverflow list.table Int64.maxValue) ∧ Exhausted list world := by
  cases h with
  | noDefault hl hidle hmissing =>
      obtain ⟨expression, hd, -⟩ := hdefault
      cases hd.symm.trans hmissing
  | @valueOverflow last hl hfull hnext =>
      have hv := nextValue?_eq_none_iff.1 hnext
      have hfull : true = world.isFull last.value := hfull
      refine ⟨by rw [hv], roster.mem_values.2 ⟨last, List.mem_of_getLast? hl, hv⟩, ?_⟩
      exact (hv ▸ hfull).symm

/-- **A table with a default recovers** from any number of syncs, whatever failed in them and
whatever the application said.  The first sync in which nothing fails succeeds and leaves the
default at the highest value and nothing to detach, unless the highest value of all is taken
and a partition after it is wanted: then it says so, and changes nothing.  In neither case
does it count an inconsistent partition. -/
theorem syncs_recover (hstrategy : manager.strategy = list.strategy) (hplain : list.IsPlain)
    (h : Recoverable manager list world) (recesses : List Recess) (last : Recess) :
    let before := mended manager list (last.change (afterwards manager recesses world))
    let after := synced manager before
    (¬Exhausted list before →
      (∃ report, after.1 = .ok (.ok (some report))) ∧
        DefaultsToHighest list after.2.catalog ∧
        (list.extra.toJob.run World.answer World.elapse after.2).1 = .ok (.ok [])) ∧
    (Exhausted list before →
      after.1 = .ok (.error (.partitioning (.valueOverflow list.table Int64.maxValue))) ∧
        after.2.catalog = before.catalog) ∧
    NoneInconsistent before after.2 := by
  dsimp only
  have h := (h.afterwards hstrategy hplain recesses).recess last
  generalize last.change (afterwards manager recesses world) = world at h ⊢
  obtain ⟨⟨ps, roster⟩, value, hdefault⟩ := serviceable_iff.1 h.serviceable
  have hvalue : ReadsDefault list world.catalog (some value) := hdefault
  have hhosts := hosts_mended h.hosts
  have hnone := noneInconsistent_synced (steady False manager list world) (.inl rfl) (.inr rfl)
    hstrategy hplain hhosts roster hvalue
  obtain ⟨hafter, -, hend⟩ := synced_of_hosts (steady False manager list world) (.inl rfl)
    (.inr rfl) hstrategy hplain hhosts (available_mended h.available) roster hvalue
  rcases hend with ⟨report, hresult, hsucceeds⟩ | ⟨error, hresult, ⟨hfaults, -⟩ | ⟨heq, hstuck⟩⟩
  · obtain ⟨all, left, -, -, hsettled⟩ := hsucceeds.settled
    refine ⟨fun _ => ⟨⟨report, hresult⟩, hsettled.defaultsToHighest, ?_⟩,
      fun hexhausted => absurd hexhausted (not_exhausted roster hsucceeds), hnone⟩
    exact extra_eq_nil hafter hsucceeds
  · exact absurd hfaults not_faults_steady
  · obtain ⟨rfl, hexhausted⟩ := exhausted_of_stuck roster hdefault hstuck
    exact ⟨fun hnot => absurd hexhausted hnot, fun _ => ⟨hresult, heq⟩, hnone⟩

/-- The small table with a gap between its partitions, and a default that is at neither. -/
def stray : World where
  catalog := (Catalog.attachValues {} "items" [3, 7]).setDefault "items" "partition" "5"
  sessions := [(⟨0⟩, { applies := true })]

theorem recoverable_stray : Recoverable itemsManager items stray := by
  have hpartitions : stray.catalog.partitions items.table =
      [⟨"partitions_dynamic", "items_3", "FOR VALUES IN ('3')"⟩,
        ⟨"partitions_dynamic", "items_7", "FOR VALUES IN ('7')"⟩] := by decide
  refine ⟨⟨?_, ?_, ?_, 5, "5", rfl, by decide⟩, rfl, rfl, rfl, rfl, rfl, by simp [stray]⟩
  · rw [hpartitions]
    exact List.forall_mem_cons.2
      ⟨⟨3, by decide, by decide⟩, List.forall_mem_singleton.2 ⟨7, by decide, by decide⟩⟩
  · rw [hpartitions]
    exact List.forall_mem_cons.2
      ⟨isPlain_items.schema, List.forall_mem_singleton.2 isPlain_items.schema⟩
  · exact (values_perm stray.catalog items.table).nodup_iff.2 (by decide)

/-- The application finds the newer partition full, and the default cannot be set. -/
def refusing : Recess where
  change world :=
    { world with isFull := fun value => value == 7 }.failStatements ⟨0⟩
      ⟨"SET DEFAULT", none, .other "denied"⟩
  catalog_change _ := rfl
  applies_change world session := by
    rw [World.failStatements, World.session_setSession]
    split
    · next heq => rw [heq]; rfl
    · rfl
  readable_change _ h := h
  available_change _ _ h := ⟨h.obtain, h.release, h.free⟩

/-- The application gives up the oldest partition, and finds none full. -/
def retiring : Recess where
  change world :=
    { world with isFull := fun _ => false, isRetired := fun value => value == 3 }
  catalog_change _ := rfl
  applies_change _ _ := rfl
  readable_change _ h := h
  available_change _ _ h := ⟨h.obtain, h.release, h.free⟩

/-- The table with a gap recovers from two syncs that could not move its default. -/
theorem syncs_recover_stray :
    ∃ report, (synced itemsManager (mended itemsManager items
      (retiring.change (afterwards itemsManager [refusing, refusing] stray)))).1 =
        .ok (.ok (some report)) :=
  ((syncs_recover rfl isPlain_items recoverable_stray [refusing, refusing] retiring).1
    fun hexhausted => Bool.false_ne_true hexhausted.2).1

end Partition

end Upkeep
