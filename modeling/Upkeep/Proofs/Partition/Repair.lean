import Upkeep.Proofs.Lease.Alone
import Upkeep.Proofs.Partition.Lifetime

/-!
# Repair of a table's first sync

The first sync of a table without partitions may be stopped by a failure at any of its
statements.  The sync after that, in which nothing fails, makes up for it, with one
exception: if the first partition was created but never became the default, then the next
sync has nothing to create and no default to go by.

## Main Definitions

* `synced` — the outcome of a sync that runs alone.
* `Fresh`, `mended` — a table before its first sync, and the world once statements no
  longer fail.

## Main Statements

* `synced_of_hosts` — the outcome of any sync that runs alone.
* `first_sync_repaired` — the sync after the first one.

## Design Notes

A missing default is not an oversight of the next sync: that a default is missing is left
for the decision what to detach to report.
-/

namespace Upkeep.Partition

open Simulation Lease

variable {list : SlidingList} {manager : Manager} {world : World} {conditions : Conditions}
  {ps : List Partition} {value? : Option Int64}

/-- The outcome of a sync that runs alone, and the world after it. -/
def synced (manager : Manager) (world : World) :
    Except Interruption (Except Error (Option SyncReport)) × World :=
  manager.sync.toJob.run World.answer World.elapse world

variable (conditions) in
/-- **A sync that runs alone** succeeds or fails as the conditions of its world say, and the
world is as the conditions say after it. -/
theorem synced_of_hosts (hm : conditions.applies manager.session)
    (hl : conditions.applies list.session) (hstrategy : manager.strategy = list.strategy)
    (hplain : list.IsPlain) (h : Hosts conditions world)
    (havailable : Available manager.leaseKey world) (roster : Roster list world.catalog ps)
    (hvalue : ReadsDefault list world.catalog value?) :
    Hosts conditions (synced manager world).2 ∧
      Available manager.leaseKey (synced manager world).2 ∧
      ((∃ report, (synced manager world).1 = .ok (.ok (some report)) ∧
          Succeeds conditions list world.catalog ps (synced manager world).2.catalog) ∨
        ∃ error, (synced manager world).1 = .ok (.error error) ∧
          Fails conditions list world.catalog ps error (synced manager world).2.catalog) := by
  have hfree : manager.strategy.LeaseFree := hstrategy ▸ list.leaseFree_strategy
  have hend := Job.run_of_keeps
    (h.keeps (upholds_sync conditions hm hl hstrategy hplain roster hvalue))
  have halone := Job.run_of_keeps (Manager.keeps_sync_alone hfree havailable)
  unfold synced
  generalize Job.run World.answer World.elapse manager.sync.toJob world = outcome at hend halone
  obtain ⟨result, after⟩ := outcome
  match result with
  | .error why => exact hend.2.elim
  | .ok (.error error) => exact ⟨hend.1, halone, .inr ⟨error, rfl, hend.2⟩⟩
  | .ok (.ok none) => exact absurd halone.1 Bool.false_ne_true
  | .ok (.ok (some report)) => exact ⟨hend.1, halone.2, .inl ⟨report, rfl, hend.2⟩⟩

/-! ### The first sync -/

/-- A table before its first sync, in a world in which at most statements fail. -/
structure Fresh (manager : Manager) (list : SlidingList) (world : World) : Prop where
  empty : world.catalog.partitions list.table = []
  noDefault : world.catalog.default? list.table list.column = none
  applies : (world.session manager.session).applies = true
  moves : (world.session list.session).applies = true
  readable : world.hidesCatalog = false
  available : Available manager.leaseKey world

/-- The world once no statement of a sync is made to fail any more. -/
def mended (manager : Manager) (list : SlidingList) (world : World) : World :=
  (world.clearFailures manager.session).clearFailures list.session

/-- The application says what it says in a world, and at most statements fail. -/
def steady (failures : Prop) (manager : Manager) (list : SlidingList) (world : World) :
    Conditions where
  failures := failures
  outages := False
  isFull value answer := answer = world.isFull value
  isRetired value answer := answer = world.isRetired value
  applies session := session = manager.session ∨ session = list.session

theorem Fresh.roster (h : Fresh manager list world) : Roster list world.catalog [] := by
  have hreadable : world.catalog.readable list.table = [] := by
    rw [Catalog.readable, h.empty, List.filterMap_nil]
  refine ⟨?_, .of_eq hreadable, List.Pairwise.nil, by simp, by simp⟩
  rw [h.empty]
  simp

/-- A world in which at most statements fail. -/
theorem hosts_steady (happlies : (world.session manager.session).applies = true)
    (hmoves : (world.session list.session).applies = true)
    (hreadable : world.hidesCatalog = false) (hobtain : world.leaseFaults.obtain = false) :
    Hosts (steady True manager list world) world := by
  refine ⟨?_, fun _ => rfl, fun _ => rfl, .inl trivial, .inr ⟨hreadable, hobtain⟩⟩
  rintro session (rfl | rfl)
  · exact happlies
  · exact hmoves

theorem Fresh.hosts (h : Fresh manager list world) :
    Hosts (steady True manager list world) world :=
  hosts_steady h.applies h.moves h.readable h.available.obtain

/-- After the failures nothing fails, and the application says what it said before. -/
theorem hosts_mended {after : World} (h : Hosts (steady True manager list world) after) :
    Hosts (steady False manager list world) (mended manager list after) := by
  have happlies : ∀ session, (steady True manager list world).applies session →
      ((mended manager list after).session session).applies = true ∧
        ((mended manager list after).session session).failures = [] := by
    intro session hs
    simp only [mended, World.clearFailures, World.session_setSession]
    have hold := h.applies session hs
    rcases hs with rfl | rfl
    · by_cases heq : manager.session = list.session
      · simp only [heq, if_true] at hold ⊢
        exact ⟨hold, trivial⟩
      · simp only [heq, if_false, if_true]
        exact ⟨hold, trivial⟩
    · simp only [if_true]
      split
      · next heq => exact ⟨heq ▸ hold, trivial⟩
      · exact ⟨hold, trivial⟩
  exact ⟨fun session hs => (happlies session hs).1, h.isFull, h.isRetired,
    .inr fun session hs => (happlies session hs).2, h.reachable⟩

theorem available_mended {key : String} {after : World} (h : Available key after) :
    Available key (mended manager list after) :=
  ⟨h.obtain, h.release, h.free⟩

/-- The default is at the highest value. -/
def DefaultsToHighest (list : SlidingList) (catalog : Catalog) : Prop :=
  ∃ value ∈ catalog.values list.table,
    (∀ other ∈ catalog.values list.table, other ≤ value) ∧ DefaultsTo list catalog value

theorem Settled.defaultsToHighest {catalog : Catalog} (h : Settled list catalog ps) :
    DefaultsToHighest list catalog := by
  obtain ⟨last, hlast, hdefault⟩ := h.default
  refine ⟨last.value, h.roster.mem_values.2 ⟨last, List.mem_of_getLast? hlast, rfl⟩, ?_, hdefault⟩
  intro other hm
  obtain ⟨partition, hp, rfl⟩ := h.roster.mem_values.1 hm
  exact h.roster.ascending.le_getLast hlast hp

/-- What the first sync may leave behind: nothing, the first partition without a default, or
that with it. -/
private theorem after_first (h : Fresh manager list world)
    (hstrategy : manager.strategy = list.strategy) (hplain : list.IsPlain) :
    Hosts (steady True manager list world) (synced manager world).2 ∧
      Available manager.leaseKey (synced manager world).2 ∧
      ∃ ps value?, Roster list (synced manager world).2.catalog ps ∧
        ReadsDefault list (synced manager world).2.catalog value? ∧
        (ps = [] ∨ ∃ first, ps = [first] ∧ first.value = 1) := by
  have hnone : ReadsDefault list world.catalog none := h.noDefault
  obtain ⟨hhosts, havailable, hend⟩ := synced_of_hosts (steady True manager list world) (.inl rfl)
    (.inr rfl) hstrategy hplain h.hosts h.available h.roster hnone
  refine ⟨hhosts, havailable, ?_⟩
  have hwithin : Within list world.catalog [] (synced manager world).2.catalog :=
    hend.elim (fun ⟨_, _, hsucceeds⟩ => hsucceeds.within) fun ⟨_, _, hfails⟩ => hfails.within
  cases hwithin with
  | same heq => exact ⟨[], none, heq ▸ h.roster, heq ▸ hnone, .inl rfl⟩
  | @extended first next roster default =>
      refine ⟨[first], none, roster, ?_, .inr ⟨first, rfl, next.first rfl⟩⟩
      exact default.trans h.noDefault
  | @settled all left hall hleft hsettled =>
      obtain ⟨last, hlast, hdefault⟩ := hsettled.default
      refine ⟨left, some last.value, hsettled.roster, hdefault, ?_⟩
      rcases hall with rfl | ⟨first, next, rfl⟩
      · exact .inl (List.suffix_nil.1 hleft)
      · rcases List.suffix_cons_iff.1 hleft with rfl | hleft
        · exact .inr ⟨first, rfl, next.first rfl⟩
        · exact .inl (List.suffix_nil.1 hleft)

/-! ### The sync after it -/

/-- The first partition is there but not the default, and there is no reason to create
another one. -/
def Stranded (list : SlidingList) (world : World) : Prop :=
  world.catalog.values list.table = [1] ∧
    world.catalog.default? list.table list.column = none ∧ world.isFull 1 = false

variable (manager) in
/-- Once nothing fails, a sync with at most the first partition at hand is stuck exactly if the
table is stranded. -/
private theorem stuck_iff {after : World} {error : Error} (roster : Roster list after.catalog ps)
    (hps : ps = [] ∨ ∃ first, ps = [first] ∧ first.value = 1)
    (hfull : after.isFull 1 = world.isFull 1) :
    Stuck (steady False manager list world) list after.catalog ps error ↔
      error = .setup (.noDefault list.model.name list.column) ∧ Stranded list after := by
  constructor
  · intro hstuck
    cases hstuck with
    | @noDefault last hlast full default =>
        rcases hps with rfl | ⟨first, rfl, hv⟩
        · cases hlast
        · obtain rfl : first = last := Option.some.inj hlast
          have hperm := roster.values_perm_map
          rw [List.map_singleton, hv] at hperm
          exact ⟨rfl, List.perm_singleton.1 hperm, default, hfull.trans (hv ▸ full).symm⟩
    | @valueOverflow last hlast full next =>
        rcases hps with rfl | ⟨first, rfl, hv⟩
        · cases hlast
        · obtain rfl : first = last := Option.some.inj hlast
          rw [hv] at next
          exact absurd next (by decide)
  · rintro ⟨rfl, hvalues, hdefault, hnot⟩
    have hperm := roster.values_perm_map
    rw [hvalues] at hperm
    rcases hps with rfl | ⟨first, rfl, hv⟩
    · exact absurd hperm.length_eq (by decide)
    · have hidle : (steady False manager list world).isFull first.value false := by
        rw [hv]
        exact hnot.symm.trans hfull
      exact .noDefault rfl hidle hdefault

/-- **The sync after the first one**, once nothing fails any more, succeeds and leaves the
default at the highest value, unless the first one has left the table stranded.  Then it says
that there is no default and changes nothing. -/
theorem first_sync_repaired (hstrategy : manager.strategy = list.strategy)
    (hplain : list.IsPlain) (h : Fresh manager list world) :
    let first := (synced manager world).2
    let second := synced manager (mended manager list first)
    (¬Stranded list first →
      ∃ report, second.1 = .ok (.ok (some report)) ∧ DefaultsToHighest list second.2.catalog) ∧
    (Stranded list first →
      second.1 = .ok (.error (.setup (.noDefault list.model.name list.column))) ∧
        second.2.catalog = first.catalog) := by
  dsimp only
  obtain ⟨hhosts, havailable, ps, value?, roster, hvalue, hps⟩ := after_first h hstrategy hplain
  generalize (synced manager world).2 = first at *
  obtain ⟨-, -, hend⟩ := synced_of_hosts (steady False manager list world) (.inl rfl) (.inr rfl)
    hstrategy hplain (hosts_mended hhosts) (available_mended havailable) roster hvalue
  generalize synced manager (mended manager list first) = second at hend ⊢
  have hfull : first.isFull 1 = world.isFull 1 := hhosts.isFull 1
  rcases hend with ⟨report, hresult, ⟨all, left, -, -, hsettled⟩, hadded⟩ | ⟨error, hresult, hfails⟩
  · refine ⟨fun _ => ⟨report, hresult, hsettled.defaultsToHighest⟩, fun hstranded => ?_⟩
    -- Without a default a sync succeeds only if there was a reason to create.
    rcases (stuck_iff manager roster hps hfull).2 ⟨rfl, hstranded⟩ with ⟨hlast, hnot, hdefault⟩
    have := (hadded hdefault _ hlast).trans hnot.symm
    cases this
  · rcases hfails with ⟨hfaults, -⟩ | ⟨heq, hstuck⟩
    · exact (hfaults.elim id id).elim
    · obtain ⟨rfl, hstranded⟩ := (stuck_iff manager roster hps hfull).1 hstuck
      exact ⟨fun hnot => absurd hstranded hnot, fun _ => ⟨hresult, heq⟩⟩

/-- The small table before its first sync, when its default cannot be set. -/
def unsettable (full : Bool) : World where
  isFull _ := full
  sessions := [(⟨0⟩, { applies := true, failures := [⟨"SET DEFAULT", none, .other "denied"⟩] })]

theorem fresh_unsettable (full : Bool) : Fresh itemsManager items (unsettable full) :=
  ⟨rfl, rfl, rfl, rfl, rfl, ⟨rfl, rfl, by simp [unsettable]⟩⟩

/-- A second partition brings the default with it. -/
theorem first_sync_repaired_full :
    ∃ report, (synced itemsManager
      (mended itemsManager items (synced itemsManager (unsettable true)).2)).1 =
        .ok (.ok (some report)) := by
  have hfull : (synced itemsManager (unsettable true)).2.isFull 1 = true := by decide +kernel
  obtain ⟨report, hresult, -⟩ :=
    (first_sync_repaired rfl isPlain_items (fresh_unsettable true)).1
      fun hstranded => absurd (hfull.symm.trans hstranded.2.2) (by decide)
  exact ⟨report, hresult⟩

/-- The first partition alone may stay without a default. -/
theorem first_sync_not_repaired :
    ¬∀ world, Fresh itemsManager items world →
      ∃ report, (synced itemsManager (mended itemsManager items (synced itemsManager world).2)).1 =
        .ok (.ok (some report)) := by
  intro h
  obtain ⟨report, hresult⟩ := h (unsettable false) (fresh_unsettable false)
  have hfails : (synced itemsManager
      (mended itemsManager items (synced itemsManager (unsettable false)).2)).1 =
        .ok (.error (.setup (.noDefault "Item" "partition"))) := by decide +kernel
  cases hfails.symm.trans hresult

end Upkeep.Partition
