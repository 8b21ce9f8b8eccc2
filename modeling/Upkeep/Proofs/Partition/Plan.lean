import Upkeep.Proofs.Partition.Outcome
import Upkeep.Proofs.Partition.Twin

/-!
# A sync stops on its way

What succeeds in a sync that fails is the beginning of what succeeds in the same sync when no
statement fails: partitions are created, the default is set, and partitions are detached, in this
order.  So its catalog is one that the other sync passes through, and a sync that reports something
has done all that the other has done.

## Main Definitions

* `InPhases` — the statements of a task succeed in the order of their phases.
* `performed` — the partition statements that succeed in a sync.

## Main Statements

* `inPhases_syncLocked` — the order of the statements of a run.
* `steps_sync` — the steps of a sync are those of its run, and those that concern the lease.
* `failing_sync_stops_on_its_way` — a sync that fails.
-/

namespace Upkeep.Partition

open Simulation Lease

variable {α β : Type} {list : SlidingList} {manager : Manager}

/-! ### The order of statements -/

/-- The statements of a task succeed in the order of their phases, none of which is outside of the
given bounds. -/
def InPhases (low high : Nat) (α : Type) (task : Task α) : Prop :=
  ∀ world, (changes (task.toJob.steps world)).Pairwise (fun a b => a.phase ≤ b.phase) ∧
    ∀ statement ∈ changes (task.toJob.steps world),
      low ≤ statement.phase ∧ statement.phase ≤ high

namespace InPhases

variable {low mid high : Nat} {task : Task α}

/-- What makes no statement is in all phases. -/
theorem of_isCalm (h : task.IsCalm) : InPhases low high α task := by
  have hobeys : task.Obeys (fun r => ∀ session sql, r ≠ .execute session sql) True :=
    h.mono (fun _ => Service.Request.ne_execute_of_isCalm) False.elim
  intro world
  rw [changes_of_obeys hobeys world]
  exact ⟨.nil, fun _ hm => absurd hm List.not_mem_nil⟩

theorem mono (h : InPhases low high α task) {low' high' : Nat} (hlow : low' ≤ low)
    (hhigh : high ≤ high') : InPhases low' high' α task := fun world =>
  ⟨(h world).1, fun statement hm =>
    ⟨hlow.trans ((h world).2 statement hm).1, ((h world).2 statement hm).2.trans hhigh⟩⟩

/-- Phases come one after the other. -/
theorem bind {f : α → Task β} (h : InPhases low mid α task)
    (hf : ∀ value, InPhases mid high β (f value)) (hlow : low ≤ mid) (hhigh : mid ≤ high) :
    InPhases low high β (task >>= f) := by
  intro world
  obtain ⟨hascending, hbounds⟩ := h.mono le_rfl hhigh world
  obtain hsteps | ⟨value, after, hsteps⟩ := Task.steps_bind_cases task f world
  · rw [hsteps]
    exact ⟨hascending, hbounds⟩
  · obtain ⟨hascending', hbounds'⟩ := hf value after
    rw [hsteps, changes_append]
    refine ⟨List.pairwise_append.2 ⟨hascending, hascending', fun a ha b hb => ?_⟩,
      fun statement hm => ?_⟩
    · exact ((h world).2 a ha).2.trans (hbounds' b hb).1
    · rcases List.mem_append.1 hm with hm | hm
      · exact hbounds statement hm
      · exact ⟨hlow.trans (hbounds' statement hm).1, (hbounds' statement hm).2⟩

end InPhases

theorem composes_inPhases (phase : Nat) : Task.Composes (InPhases phase phase) where
  pure value := .of_isCalm (Task.obeys_pure value)
  bind h hf := h.bind hf le_rfl le_rfl
  log _ := .of_isCalm (Task.obeys_liftM (Service.obeys_ask rfl))
  count _ _ := .of_isCalm (Task.obeys_liftM (Service.obeys_ask rfl))

theorem inPhases_reads (phase : Nat) (list : SlidingList) : list.Reads (InPhases phase phase) :=
  list.isCalm_reads.imp .of_isCalm

/-- A retried statement is made in its phase. -/
theorem inPhases_run (retrier : Ddl.Retrier) (statement : Sql.Statement) (timing : Ddl.Timing) :
    InPhases statement.phase statement.phase _ (retrier.run statement.text timing true) := by
  intro world
  obtain ⟨result, after, -, hend⟩ := Ddl.Retrier.run_cases retrier statement timing world
  have hsub : (changes ((retrier.run statement.text timing true).toJob.steps world)).Sublist
      [statement] := by
    match result with
    | .ok outcome =>
        rw [show changes _ = _ from hend.one]
        exact List.filter_sublist
    | .error error =>
        rw [show changes _ = _ from hend.1.none]
        exact List.nil_sublist _
  refine ⟨(List.pairwise_singleton _ statement).sublist hsub, fun other hm => ?_⟩
  rw [List.mem_singleton.1 (hsub.subset hm)]
  exact ⟨le_rfl, le_rfl⟩

/-- **A run** creates, sets the default, and detaches, in this order. -/
theorem inPhases_syncLocked (hstrategy : manager.strategy = list.strategy) :
    InPhases 0 2 SyncReport manager.syncLocked := by
  have hexecute (statement : Sql.Statement) :
      InPhases statement.phase statement.phase _ (manager.execute statement) :=
    (composes_inPhases _).bind (inPhases_run _ _ _) fun _ => (composes_inPhases _).pure _
  have hmoves : InPhases 1 1 _ manager.strategy.afterAdding := by
    rw [hstrategy]
    refine (composes_inPhases 1).bind ((inPhases_reads 1 list).active (composes_inPhases 1))
      fun active => ?_
    exact (composes_inPhases 1).bind
      (inPhases_run _ (list.setDefaultStatement active.value) _) fun _ =>
        (composes_inPhases 1).log _
  have hlags : InPhases 0 0 _ manager.strategy.lags := by
    rw [hstrategy]
    exact (inPhases_reads 0 list).lags (composes_inPhases 0)
  have hextend (missing : List Partition) : InPhases 0 1 _ (manager.extend missing) := by
    unfold Manager.extend
    split
    · refine hlags.bind (fun lags => ?_) le_rfl (by decide)
      split
      · exact ((composes_inPhases 0).log _).bind (fun _ => hmoves.mono (by decide) le_rfl)
          le_rfl (by decide)
      · exact (composes_inPhases 0).pure () |>.mono le_rfl (by decide)
    · exact (Manager.create_of_composes (composes_inPhases 0) (fun _ => hexecute _) _).bind
        (fun _ => hmoves.mono (by decide) le_rfl) le_rfl (by decide)
  have hdetach (extra : List Partition) : InPhases 2 2 _ (manager.detach extra) :=
    Manager.detach_of_composes (composes_inPhases 2) (fun _ => hexecute _) extra
  have hmissing : InPhases 0 0 _ manager.strategy.missing := by
    rw [hstrategy]
    exact (inPhases_reads 0 list).missing (composes_inPhases 0)
  have hextra : InPhases 2 2 _ manager.strategy.extra := by
    rw [hstrategy]
    exact (inPhases_reads 2 list).extra (composes_inPhases 2)
  refine hmissing.bind (fun missing => ?_) le_rfl (by decide)
  refine (hextend missing).bind (fun _ => ?_) (by decide) (by decide)
  refine (show InPhases 2 2 _ _ from ?_).mono (by decide) le_rfl
  exact (composes_inPhases 2).bind hextra fun extra =>
    (composes_inPhases 2).bind (hdetach extra) fun _ => (composes_inPhases 2).pure _

/-! ### A sync -/

/-- The partition statements that succeed in a sync, in this order. -/
def performed (manager : Manager) (world : World) : List Sql.Statement :=
  changes (manager.sync.toJob.steps world)

/-- The steps of work whose lease is free: those of the work lie between those about the lease. -/
private theorem steps_holding {work : Job Service (Except Error α)} {key : String}
    {lease : Duration} {world start after : World} (havailable : Available key world)
    (hstart : start = (world.answer (.obtainLease key lease)).2.write
      (obtainedEvent ⟨key, ⟨world.tokensDrawn⟩⟩))
    {result : Except Error α}
    (hrun : work.run World.answer World.elapse start = (.ok result, after)) :
    ∃ front back, (holding key lease work).toJob.steps world =
        front ++ (work.steps start ++ back) ∧
      changes front = [] ∧ changes back = [] := by
  subst hstart
  let guard : Guard := ⟨key, ⟨world.tokensDrawn⟩⟩
  let granted := (world.answer (.obtainLease key lease)).2
  let reported : Job Service (Except Error α) := do
    Service.log (obtainedEvent guard)
    work
  have hasked : (Service.attempt (Service.ask (.obtainLease key lease)) :
      Task (Option Token)).toJob.run World.answer World.elapse world =
        (.ok (.ok (some guard.token)), granted) := by
    have hfree : (world.leases.obtain world.now key lease guard.token).1 = true :=
      Store.obtain_eq_true_iff.2 havailable.free
    refine Prod.ext (congrArg Except.ok ?_) rfl
    show (world.obtainLease key lease).1 = _
    simp [World.obtainLease, World.drawToken, havailable.obtain, guard, hfree]
  have hacquired : (acquire key lease).toJob.run World.answer World.elapse world =
      (.ok (.ok (some guard)), granted) := (Task.bind_of_ok hasked).1
  have hasking : (acquire key lease).toJob.steps world = [⟨world, .obtainLease key lease⟩] :=
    (Task.bind_of_ok hasked).2
  obtain ⟨hstopped, hsteps⟩ : (reported.onStop guard.abandon).run World.answer World.elapse
      granted = (.ok result, after) ∧
        (reported.onStop guard.abandon).steps granted = reported.steps granted :=
    Job.onStop_of_ok hrun
  have hprotect : (guard.protect work).steps granted =
      reported.steps granted ++ guard.release.steps after := by
    refine (Job.steps_bind (reported.onStop guard.abandon) _ granted).trans ?_
    rw [hstopped, hsteps]
    exact congrArg (reported.steps granted ++ ·) (Job.steps_bind_done guard.release _ after)
  refine ⟨[⟨world, .obtainLease key lease⟩, ⟨granted, .log (obtainedEvent guard)⟩],
    guard.release.steps after, ?_, rfl,
    changes_of_obeys (guard.obeys_release (by rintro _ _ ⟨⟩) (by rintro _ _ _ ⟨⟩)) after⟩
  rw [toJob_holding, Job.steps_bind, hacquired, hasking]
  exact congrArg (List.cons _) ((Job.steps_bind_done _ _ granted).trans hprotect)

/-- **The steps of a sync** that is granted its lease are those of its run, and those that concern
the lease. -/
theorem steps_sync {world after : World} (havailable : Available manager.leaseKey world)
    {result : Except Error SyncReport}
    (hrun : manager.syncLocked.toJob.run World.answer World.elapse (entered manager world) =
      (.ok result, after)) :
    ∃ front back, manager.sync.toJob.steps world =
        front ++ (manager.syncLocked.toJob.steps (entered manager world) ++ back) ∧
      changes front = [] ∧ changes back = [] := by
  obtain ⟨front, back, hsteps, hfront, hback⟩ := steps_holding havailable rfl hrun
  -- What comes after the lease at most reports that it was held elsewhere.
  obtain ⟨rest, hsync, hrest⟩ : ∃ rest, manager.sync.toJob.steps world =
      (holding manager.leaseKey manager.settings.lease
        manager.syncLocked.toJob).toJob.steps world ++ rest ∧ changes rest = [] := by
    rcases Task.steps_bind_cases _ _ world with hsync | ⟨value?, final, hsync⟩
    · exact ⟨[], hsync.trans (List.append_nil _).symm, rfl⟩
    · refine ⟨_, hsync, ?_⟩
      match value? with
      | none => rfl
      | some (.ok report) => rfl
      | some (.error error) => rfl
  refine ⟨front, back ++ rest, ?_, hfront, ?_⟩
  · rw [hsync, hsteps, List.append_assoc, List.append_assoc]
    rfl
  · rw [changes_append, hback, hrest, List.nil_append]

/-- Asking for the lease leaves the database alone. -/
theorem database_entered (manager : Manager) (world : World) :
    (entered manager world).database = world.database :=
  world.database_answer nofun

/-- A sync whose lease is free does what its run does, and gives the lease back. -/
theorem synced_of_available (hstrategy : manager.strategy = list.strategy) {world : World}
    (havailable : Available manager.leaseKey world) :
    ∃ result after,
      manager.syncLocked.toJob.run World.answer World.elapse (entered manager world) =
        (.ok result, after) ∧
      (synced manager world).1 = .ok (result.map some) ∧
      (synced manager world).2.database = after.database ∧
      Available manager.leaseKey (synced manager world).2 ∧
      performed manager world = changes (manager.syncLocked.toJob.steps (entered manager world)) ∧
      ∀ catalog ∈ catalogs world.catalog (manager.syncLocked.toJob.steps (entered manager world)),
        catalog ∈ catalogs world.catalog (manager.sync.toJob.steps world) := by
  have hfree : manager.strategy.LeaseFree := hstrategy ▸ list.leaseFree_strategy
  have hreach : (entered manager world).leaseFaults.obtain = false :=
    (congrArg LeaseFaults.obtain (World.frame_answer _ world).leaseFaults).trans havailable.obtain
  obtain ⟨result, after, hrun, houtcome⟩ := outcome_eq_run hstrategy hreach
  obtain ⟨result', final, hsync, houtcome', hfinal⟩ := Manager.run_sync_alone
    (Manager.onDatabase_syncLocked list hstrategy) hfree havailable
  rw [database_entered, houtcome'] at houtcome
  obtain ⟨hresult, hdatabase⟩ := Prod.mk.inj houtcome
  obtain rfl : result' = result := Except.ok.inj hresult
  have hsynced : synced manager world = (.ok (result'.map some), final) := hsync
  obtain ⟨front, back, hsteps, hfront, hback⟩ := steps_sync havailable hrun
  refine ⟨result', after, hrun, ?_, ?_, ?_, ?_, fun catalog hm => ?_⟩
  · rw [hsynced]
  · rw [hsynced]
    exact hdatabase
  · rw [hsynced]
    exact hfinal
  · rw [performed, hsteps, changes_append, changes_append, hfront, hback, List.nil_append,
      List.append_nil]
  · rw [hsteps]
    rcases List.mem_cons.1 hm with rfl | hm
    · exact List.mem_cons_self
    · rw [catalogs, List.map_append, List.map_append]
      exact List.mem_cons_of_mem _ (List.mem_append_right _ (List.mem_append_left _ hm))

/-- A world and the same one once no statement is made to fail any more. -/
theorem twin_mended (manager : Manager) (list : SlidingList) (world : World) :
    Twin (fun session => session = manager.session ∨ session = list.session) world.database
      (mended manager list world).database := by
  have hsession (session : Session) :
      ((mended manager list world).database.session session).applies =
          (world.database.session session).applies ∧
        (session = manager.session ∨ session = list.session →
          ((mended manager list world).database.session session).failures = []) := by
    have hstate : (mended manager list world).database.session session =
        (mended manager list world).session session := rfl
    have hstate' : world.database.session session = world.session session := rfl
    rw [hstate, hstate', mended, World.clearFailures, World.session_setSession,
      World.clearFailures, World.session_setSession, World.session_setSession]
    constructor
    · split
      · next hlist =>
          split
          · next hmanager => rw [hlist, hmanager]
          · rw [hlist]
      · split
        · next hmanager => rw [hmanager]
        · rfl
    · rintro (hmanager | hlist)
      · rw [apply_ite SessionState.failures, apply_ite SessionState.failures, if_pos hmanager,
          ite_self]
      · rw [if_pos hlist]
  exact ⟨rfl, rfl, rfl, rfl, fun session => (hsession session).1,
    fun session => (hsession session).2⟩

/-- A run that cannot read what is attached makes no statement. -/
theorem syncLocked_of_unreadable (hstrategy : manager.strategy = list.strategy) {world : World}
    {listing : Listing} (hm : listing ∈ world.catalog.partitions list.table)
    (hparse : ∀ value, Condition.parse listing.condition ≠ .ok value) :
    ∃ error, manager.syncLocked.toJob.run World.answer World.elapse world =
      (.ok (.error error), world.note (.partitions list.table)) := by
  have hasked : (Service.attempt (Service.ask (.listPartitions list.table)) :
      Task (List Listing)).toJob.run World.answer World.elapse world =
        (.ok (world.listPartitions list.table), world.note (.partitions list.table)) := rfl
  have hcurrent : ∃ error, list.current.toJob.run World.answer World.elapse world =
      (.ok (.error error), world.note (.partitions list.table)) := by
    cases hlisted : world.listPartitions list.table with
    | error error =>
        rw [hlisted] at hasked
        exact ⟨error, (Task.bind_of_error hasked).1⟩
    | ok listings =>
        have hlistings : listings = world.catalog.partitions list.table := by
          rw [World.listPartitions] at hlisted
          split at hlisted
          · cases hlisted
          · exact (Except.ok.inj hlisted).symm
        cases hread : SlidingList.ofListings list.table listings with
        | error error =>
            refine ⟨.partitioning error, ?_⟩
            rw [hlisted] at hasked
            rw [SlidingList.current, (Task.bind_of_ok hasked).1, hread]
            rfl
        | ok read =>
            obtain ⟨partition, hpartition⟩ :=
              (ofListings_eq_ok_iff.1 hread).1 listing (hlistings ▸ hm)
            exact absurd (ofListing_eq_ok_iff.1 hpartition).1 (hparse _)
  obtain ⟨error, hcurrent⟩ := hcurrent
  have hmissing : manager.strategy.missing.toJob.run World.answer World.elapse world =
      (.ok (.error error), world.note (.partitions list.table)) := by
    rw [hstrategy]
    exact (Task.bind_of_error hcurrent).1
  exact ⟨error, (Task.bind_of_error hmissing).1⟩

/-- A sync that cannot read what is attached makes no statement. -/
theorem synced_of_unreadable (hstrategy : manager.strategy = list.strategy) {world : World}
    (havailable : Available manager.leaseKey world)
    (hbroken : ∃ listing ∈ world.catalog.partitions list.table,
      ∀ value, Condition.parse listing.condition ≠ .ok value) :
    (∃ error, (synced manager world).1 = .ok (.error error)) ∧
      (synced manager world).2.sessions = world.sessions := by
  obtain ⟨listing, hm, hparse⟩ := hbroken
  obtain ⟨result, after, hrun, hresult, hdatabase, -⟩ := synced_of_available hstrategy havailable
  have hentered : (entered manager world).catalog = world.catalog :=
    congrArg Database.catalog (database_entered manager world)
  obtain ⟨error, hfailed⟩ := syncLocked_of_unreadable hstrategy (hentered ▸ hm) hparse
  obtain ⟨hsame, hafter⟩ := Prod.mk.inj (hrun.symm.trans hfailed)
  refine ⟨⟨error, ?_⟩, (congrArg Database.sessions hdatabase).trans ?_⟩
  · rw [hresult, Except.ok.inj hsame]
    rfl
  · rw [hafter]
    exact congrArg Database.sessions (database_entered manager world)

/-- **A failing sync stops on its way.**  Whatever fails and however often, the partition statements
that succeed in a sync are the first of those that succeed in the same sync without failures, which
creates partitions, then sets the default, and then detaches partitions.  If it reports anything
then they are all of them, and otherwise its catalog is still one that the other sync passes
through.  If the bound of some partition cannot be read then there is no statement at all.  In any
case the lease is free again afterwards. -/
theorem failing_sync_stops_on_its_way (hstrategy : manager.strategy = list.strategy) {world : World}
    (havailable : Available manager.leaseKey world) :
    let free := mended manager list world
    performed manager world <+: performed manager free ∧
      ((∃ report, (synced manager world).1 = .ok (.ok (some report)) ∧
          (synced manager free).1 = .ok (.ok (some report)) ∧
          performed manager world = performed manager free) ∨
        ∃ error, (synced manager world).1 = .ok (.error error)) ∧
      (synced manager world).2.catalog ∈
        catalogs world.catalog (manager.sync.toJob.steps free) ∧
      (performed manager free).Pairwise (fun first second => first.phase ≤ second.phase) ∧
      ((∃ listing ∈ world.catalog.partitions list.table,
          ∀ value, Condition.parse listing.condition ≠ .ok value) →
        (∃ error, (synced manager world).1 = .ok (.error error)) ∧
          (synced manager world).2.sessions = world.sessions) ∧
      Available manager.leaseKey (synced manager world).2 := by
  intro free
  have havailable' : Available manager.leaseKey free := available_mended havailable
  obtain ⟨result, after, hrun, hresult, hdatabase, hfree, hperformed, -⟩ :=
    synced_of_available hstrategy havailable
  obtain ⟨result', after', hrun', hresult', -, -, hperformed', hpassed⟩ :=
    synced_of_available hstrategy havailable'
  have hcatalog : (synced manager world).2.catalog = after.catalog :=
    congrArg Database.catalog hdatabase
  have htwin : Twin (fun session => session = manager.session ∨ session = list.session)
      (entered manager world).database (entered manager free).database := by
    rw [database_entered, database_entered]
    exact twin_mended manager list world
  have hstart : (entered manager free).catalog = world.catalog :=
    congrArg Database.catalog (database_entered manager free)
  have horder : (performed manager free).Pairwise fun first second =>
      first.phase ≤ second.phase :=
    hperformed' ▸ (inPhases_syncLocked hstrategy (entered manager free)).1
  obtain ⟨hbegins, hends, hreached⟩ :=
    (tracks_syncLocked hstrategy (.inl rfl) (.inr rfl) _ _ htwin).progress hrun hrun'
  rw [← hperformed, ← hperformed'] at hbegins hends
  refine ⟨hbegins, ?_, ?_, horder, synced_of_unreadable hstrategy havailable, hfree⟩
  · rw [hresult, hresult']
    rcases hends with ⟨report, rfl, rfl, hall⟩ | ⟨error, rfl⟩
    · exact .inl ⟨report, rfl, rfl, hall⟩
    · exact .inr ⟨error, rfl⟩
  · rw [hcatalog]
    exact hpassed _ (hstart ▸ hreached)

/-- The small table before its first sync: without a default its partition is created all the
same. -/
theorem failing_sync_stops_on_its_way_unsettable :
    let free := mended itemsManager items (unsettable false)
    performed itemsManager (unsettable false) =
        [.createPartition "partitions_dynamic" "items_1" "items" 1] ∧
      performed itemsManager free =
        [.createPartition "partitions_dynamic" "items_1" "items" 1,
          .setDefault "items" "partition" 1] ∧
      performed itemsManager (unsettable false) <+: performed itemsManager free ∧
      Available itemsManager.leaseKey (synced itemsManager (unsettable false)).2 := by
  obtain ⟨hbegins, -, -, -, -, hfree⟩ :=
    failing_sync_stops_on_its_way (show itemsManager.strategy = items.strategy from rfl)
      (fresh_unsettable false).available
  exact ⟨by decide +kernel, by decide +kernel, hbegins, hfree⟩

end Upkeep.Partition
