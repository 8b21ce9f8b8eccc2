import Upkeep.Proofs.Partition.Course
import Upkeep.Proofs.Partition.Repair
import Upkeep.Proofs.Partition.Replay

/-!
# Syncs in the world

What is known about runs in a catalog that nobody else changes, carried over to the syncs of a
world.  A sync that reports something was granted its lease, so it has done what its work does to
the database of the world.

## Main Statements

* `outcome_of_keeps`, `outcome_of_no_statement` — what becomes of the work of a sync, by what it
  keeps in a catalog.
* `synced_of_unreachable`, `synced_of_held`, `synced_of_free` — the three ways of a sync, by what it
  is answered when it asks for its lease.
* `synced_some` — a sync that reports something has done its work.
* `course_of_synced` — and so it has gone the course of a run.
-/

namespace Upkeep.Partition

open Simulation Lease

variable {list : SlidingList} {manager : Manager} {world : World} {conditions : Conditions}
  {report : SyncReport}

/-- What the conditions are about is the database, and whether leases are within reach. -/
theorem Hosts.of_database (h : Hosts conditions world) {after : World}
    (same : after.database = world.database)
    (faults : after.leaseFaults.obtain = world.leaseFaults.obtain) : Hosts conditions after := by
  have sessions (session : Session) : after.session session = world.session session := by
    have states : after.sessions = world.sessions := congrArg Database.sessions same
    simp only [World.session, states]
  have full : after.isFull = world.isFull := congrArg Database.isFull same
  have retired : after.isRetired = world.isRetired := congrArg Database.isRetired same
  have hides : after.hidesCatalog = world.hidesCatalog := congrArg Database.hidesCatalog same
  refine ⟨fun session hs => ?_, fun value => ?_, fun value => ?_, ?_, ?_⟩
  · exact sessions session ▸ h.applies session hs
  · exact full ▸ h.isFull value
  · exact retired ▸ h.isRetired value
  · simpa only [sessions] using h.smooth
  · rw [hides, faults]
    exact h.reachable

/-- What becomes of the work of a sync is what becomes of it in the world, without a lease. -/
theorem outcome_eq_run (hstrategy : manager.strategy = list.strategy)
    (hreach : world.leaseFaults.obtain = false) :
    ∃ result after, manager.syncLocked.toJob.run World.answer World.elapse world =
        (.ok result, after) ∧
      manager.outcome world.database = (.ok result, after.database) := by
  obtain ⟨result, after, s, hrun, hafter, -, houtcome⟩ := run_of_replay (@keeps_replay _
    manager.leaseKey _ (Manager.onDatabase_syncLocked list hstrategy) world.database) rfl hreach
  exact ⟨result, after, hrun, hafter ▸ houtcome⟩

section Keeps

variable {rule : Catalog → Service.Request → Prop} {ok : SyncReport → Catalog → Prop}
  {failed : Error → Catalog → Prop} (hstrategy : manager.strategy = list.strategy)
  (h : Hosts conditions world) (hreach : world.leaseFaults.obtain = false)
  (hrule : ∀ catalog session sql, rule catalog (.execute session sql) →
    conditions.applies session)
  (hwork : manager.syncLocked.Keeps (database conditions) rule ok failed (fun _ _ => False)
    world.catalog)
include hstrategy h hreach hrule hwork

/-- **What becomes of the work of a sync** is as demanded in a catalog that nobody else
changes. -/
theorem outcome_of_keeps :
    ∃ result after, manager.outcome world.database = (.ok result, World.database after) ∧
      after.leaseFaults.obtain = false ∧ Hosts conditions after ∧
      match result with
      | .ok report => ok report after.catalog
      | .error error => failed error after.catalog := by
  obtain ⟨result, after, hrun, houtcome⟩ := outcome_eq_run hstrategy hreach
  have hkept := h.keeps_of_applies hrule hwork
  have hend := Job.run_of_keeps hkept
  let reachable (world : World) : Prop := world.leaseFaults.obtain = false
  have hfaults : reachable (manager.syncLocked.toJob.run World.answer World.elapse world).2 :=
    Job.preserved_of_keeps hkept
      (fun world r _ hobtain =>
        (congrArg LeaseFaults.obtain (World.frame_answer r world).leaseFaults).trans hobtain)
      (fun _ _ hobtain => hobtain) hreach
  rw [hrun] at hend hfaults
  refine ⟨result, after, houtcome, hfaults, hend.1, ?_⟩
  cases result with
  | ok report => exact hend.2
  | error error => exact hend.2

/-- Without statements the database stays as it is. -/
theorem outcome_of_no_statement
    (silent : ∀ catalog session sql, ¬rule catalog (.execute session sql)) :
    (manager.outcome world.database).2 = world.database := by
  obtain ⟨result, after, hrun, houtcome⟩ := outcome_eq_run hstrategy hreach
  let same (after : World) : Prop := after.database = world.database
  have hsame : same (manager.syncLocked.toJob.run World.answer World.elapse world).2 := by
    refine Job.preserved_of_keeps (h.keeps_of_applies hrule hwork) (fun before r hr hbefore => ?_)
      (fun _ _ hbefore => hbefore) rfl
    refine (before.database_answer ?_).trans hbefore
    rintro session sql rfl
    exact silent _ _ _ hr.2
  rw [hrun] at hsame
  rw [houtcome]
  exact hsame

end Keeps

/-- Whether the lease store can be reached does not change. -/
theorem leaseFaults_synced (manager : Manager) (world : World) :
    (synced manager world).2.leaseFaults = world.leaseFaults := by
  let same (after : World) : Prop := after.leaseFaults = world.leaseFaults
  have hsame : same (manager.sync.toJob.run World.answer World.elapse world).2 :=
    Job.preserved_of_keeps (Job.keeps_trivially manager.sync.toJob world)
      (fun after r _ hsame => (World.frame_answer r after).leaseFaults.trans hsame)
      (fun _ _ hsame => hsame) rfl
  exact hsame

/-- A sync ends as it is demanded of it. -/
theorem synced_of_keeps {rule : World → Service.Request → Prop}
    {ok : Option SyncReport → World → Prop} {failed : Error → World → Prop}
    (h : manager.sync.Keeps World.answers rule ok failed (fun _ _ => False) world) :
    ∃ result, (synced manager world).1 = .ok result ∧
      match result with
      | .ok report? => ok report? (synced manager world).2
      | .error error => failed error (synced manager world).2 := by
  have hend := Job.run_of_keeps h
  unfold synced
  generalize Job.run World.answer World.elapse manager.sync.toJob world = outcome at hend
  match outcome with
  | (.error why, after) => exact hend.elim
  | (.ok (.error error), after) => exact ⟨.error error, rfl, hend⟩
  | (.ok (.ok report?), after) => exact ⟨.ok report?, rfl, hend⟩

/-- A store that is out of reach fails a sync. -/
theorem synced_of_unreachable (hobtain : world.leaseFaults.obtain = true) :
    (synced manager world).1 = .ok (.error World.unreachable) := by
  have hanswer : world.obtainLease manager.leaseKey manager.settings.lease =
      (.error World.unreachable, world) := by
    simp [World.obtainLease, hobtain]
  have hkeeps : manager.sync.Keeps World.answers (fun _ _ => True) (fun _ _ => False)
      (fun error _ => error = World.unreachable) (fun _ _ => False) world := by
    refine Task.keeps_bind.2 (Task.keeps_bind.2 (keeps_acquire ?_))
    rw [hanswer]
  obtain ⟨result, hresult, hend⟩ := synced_of_keeps hkeeps
  cases result with
  | error error => exact hend ▸ hresult
  | ok report? => exact hend.elim

/-- The world after a sync that was not granted its lease. -/
def skipped (manager : Manager) (world : World) : World :=
  let refused := (world.answer (.obtainLease manager.leaseKey manager.settings.lease)).2.write
    (heldEvent manager.leaseKey)
  (refused.answer (.count manager.account .leaseSkipped 1)).2.write
    (Manager.skippedEvent manager.strategy.table manager.leaseKey)

/-- The world in which a run begins that was granted its lease. -/
def entered (manager : Manager) (world : World) : World :=
  (world.answer (.obtainLease manager.leaseKey manager.settings.lease)).2.write
    (obtainedEvent ⟨manager.leaseKey, ⟨world.tokensDrawn⟩⟩)

/-- A lease that somebody else has is left to them. -/
theorem synced_of_held (hreach : world.leaseFaults.obtain = false)
    (hheld : (world.leases.obtain world.now manager.leaseKey manager.settings.lease
      ⟨world.tokensDrawn⟩).1 = false) :
    synced manager world = (.ok (.ok none), skipped manager world) := by
  have hanswer : world.obtainLease manager.leaseKey manager.settings.lease =
      (.ok none, (world.answer (.obtainLease manager.leaseKey manager.settings.lease)).2) := by
    simp [World.answer, World.obtainLease, World.drawToken, hreach, hheld]
  have hkeeps : manager.sync.Keeps World.answers (fun _ _ => True)
      (fun report? after => report? = none ∧ after = skipped manager world)
      (fun _ _ => False) (fun _ _ => False) world := by
    refine Task.keeps_bind.2 (Task.keeps_bind.2 (keeps_acquire ?_))
    rw [hanswer]
    refine Task.keeps_bind.2 (Task.keeps_liftM.2
      (Service.keeps_log.2 ⟨trivial, fun _ _ => Task.keeps_pure.2 ?_, False.elim⟩))
    refine Task.keeps_bind.2 (Task.keeps_liftM.2
      (Service.keeps_count.2 ⟨trivial, fun _ _ => ?_, False.elim⟩))
    exact Task.keeps_bind.2 (Task.keeps_liftM.2
      (Service.keeps_log.2 ⟨trivial, fun _ _ => Task.keeps_pure.2 ⟨rfl, rfl⟩, False.elim⟩))
  obtain ⟨result, hresult, hend⟩ := synced_of_keeps hkeeps
  cases result with
  | error error => exact hend.elim
  | ok report? => exact Prod.ext (hend.1 ▸ hresult) hend.2

/-- A sync that is granted its lease does its work and gives the lease back. -/
theorem synced_of_free (hreach : world.leaseFaults.obtain = false)
    (hfree : (world.leases.obtain world.now manager.leaseKey manager.settings.lease
      ⟨world.tokensDrawn⟩).1 = true) {result : Except Error SyncReport} {after : World}
    (hrun : manager.syncLocked.toJob.run World.answer World.elapse (entered manager world) =
      (.ok result, after))
    (hrelease : after.leaseFaults.release = false)
    (hleases : after.leases = (entered manager world).leases) :
    synced manager world =
      (.ok (result.map some), { after with leases := world.leases.evict world.now }) := by
  have hanswer : world.obtainLease manager.leaseKey manager.settings.lease =
      (.ok (some ⟨world.tokensDrawn⟩),
        (world.answer (.obtainLease manager.leaseKey manager.settings.lease)).2) := by
    simp [World.answer, World.obtainLease, World.drawToken, hreach, hfree]
  have hentered : (entered manager world).leases = (world.leases.obtain world.now manager.leaseKey
      manager.settings.lease ⟨world.tokensDrawn⟩).2 := by
    simp [entered, World.answer, World.obtainLease, World.drawToken, hreach, World.write]
  have hreturned : after.releaseLease manager.leaseKey ⟨world.tokensDrawn⟩ =
      (.ok true, { after with leases := world.leases.evict world.now }) := by
    simp only [World.releaseLease, hrelease, hleases, hentered, Store.release_obtain hfree]
    rfl
  have hkeeps : manager.sync.Keeps World.answers (fun _ _ => True)
      (fun report? final => result.map some = .ok report? ∧
        final = { after with leases := world.leases.evict world.now })
      (fun error final => result.map some = .error error ∧
        final = { after with leases := world.leases.evict world.now })
      (fun _ _ => False) world := by
    refine Task.keeps_bind.2 (Task.keeps_bind.2 (keeps_acquire ?_))
    rw [hanswer]
    refine Task.keeps_map.2 (Task.keeps_ofJob.2 (Guard.keeps_protect_iff.2
      (Service.keeps_log.2 ⟨trivial, fun _ _ => ?_, False.elim⟩)))
    refine (Job.keeps_run manager.syncLocked.toJob (entered manager world)).mono (fun _ _ hr => hr)
      (fun result' after' hrun' => ?_) fun why after' hrun' => ?_
    · obtain ⟨⟨rfl⟩, rfl⟩ := Prod.mk.inj (hrun.symm.trans hrun')
      refine keeps_release_of_returned hreturned ?_
      cases result with
      | ok report => exact Task.keeps_map.2 (Task.keeps_attempt.2 ⟨rfl, rfl⟩)
      | error error => exact Task.keeps_map.2 (Task.keeps_attempt.2 ⟨rfl, rfl⟩)
    · cases hrun.symm.trans hrun'
  obtain ⟨result', hresult, hend⟩ := synced_of_keeps hkeeps
  cases result' with
  | error error => exact Prod.ext (hresult.trans (congrArg Except.ok hend.1.symm)) hend.2
  | ok report? => exact Prod.ext (hresult.trans (congrArg Except.ok hend.1.symm)) hend.2

/-- **A sync that reports something** has done its work, and on the database that it found. -/
theorem synced_some (hstrategy : manager.strategy = list.strategy)
    (hreport : (synced manager world).1 = .ok (.ok (some report))) :
    world.leaseFaults.obtain = false ∧
      manager.outcome world.database = (.ok (.ok report), (synced manager world).2.database) := by
  have hreach : world.leaseFaults.obtain = false := by
    cases hobtain : world.leaseFaults.obtain with
    | false => rfl
    | true => cases hreport.symm.trans (synced_of_unreachable hobtain)
  obtain ⟨value, after, s, hrun, hafter, hends⟩ := run_of_replay
    (manager.keeps_sync_replay (Manager.onDatabase_syncLocked list hstrategy) world.database) rfl
    hreach
  have hsynced : synced manager world = (.ok value, after) := hrun
  rw [hsynced] at hreport ⊢
  obtain rfl : value = .ok (some report) := Except.ok.inj hreport
  refine ⟨hreach, ?_⟩
  unfold Manager.Ends at hends
  split at hends
  · obtain ⟨result, houtcome, hvalue⟩ := hends
    match result with
    | .ok report' =>
        obtain rfl : report = report' := Option.some.inj (Except.ok.inj hvalue)
        exact hafter ▸ houtcome
    | .error error => cases hvalue
  · cases hends

/-- **A sync that reports something** has gone the course of a run. -/
theorem course_of_synced (hm : conditions.applies manager.session)
    (hl : conditions.applies list.session) (hstrategy : manager.strategy = list.strategy)
    (h : Hosts conditions world) (legible : Legible list world.catalog)
    (hreport : (synced manager world).1 = .ok (.ok (some report))) :
    Hosts conditions (synced manager world).2 ∧
      ∃ mid, Course conditions list world.catalog mid (synced manager world).2.catalog report := by
  obtain ⟨hreach, houtcome⟩ := synced_some hstrategy hreport
  obtain ⟨result, after, houtcome', hafter, hhosts, hend⟩ := outcome_of_keeps hstrategy h hreach
    (fun _ _ _ concerns => concerns.2.1) (minds_syncLocked hm hl hstrategy legible)
  have hsame := houtcome.symm.trans houtcome'
  obtain rfl : Except.ok report = result := Except.ok.inj (Prod.mk.inj hsame).1
  have hdatabase : (synced manager world).2.database = after.database := (Prod.mk.inj hsame).2
  have hfaults : (synced manager world).2.leaseFaults.obtain = after.leaseFaults.obtain := by
    rw [leaseFaults_synced, hreach, hafter]
  have hcatalog : (synced manager world).2.catalog = after.catalog :=
    congrArg Database.catalog hdatabase
  exact ⟨hhosts.of_database hdatabase hfaults, hcatalog ▸ hend⟩

end Upkeep.Partition
