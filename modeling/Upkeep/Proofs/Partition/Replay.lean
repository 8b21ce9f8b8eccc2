import Upkeep.Proofs.Ddl.Retry
import Upkeep.Proofs.Lease.Alone
import Upkeep.Proofs.Lease.Span
import Upkeep.Proofs.Partition.Parts
import Upkeep.Proofs.Simulation.Database

/-!
# A sync is determined by the database

All that a sync learns while it has the lease is what the database answers.  So a sync that
was granted the lease ends as its work does when that is carried out on the database alone,
whoever else asks for the lease meanwhile and however long it sleeps.

## Main Definitions

* `Task.OnDatabase` — a task that asks nothing but what the database answers.
* `Manager.outcome` — what becomes of the work of a sync on a database, and of the database.
* `replay` — surroundings that know whether the lease was granted, and a database.
* `Manager.Ends` — how a sync ends that found the database in some state.

## Main Statements

* `Manager.keeps_sync_replay` — how every sync ends.
* `run_of_replay` — a job that runs alone, by what it does to a database.
* `Manager.run_sync_alone` — so a sync that nobody else is at ends as its work does.
-/

namespace Upkeep

open Simulation

variable {α β : Type}

/-! ### Tasks on the database -/

/-- The task asks nothing but what the database answers, and unless it is interrupted it ends
with a value or an error. -/
def Task.OnDatabase (task : Task α) : Prop := task.Settles fun r => r.isDatabase = true

theorem Task.onDatabase_of_ask {r : Service.Request} (hr : r.isDatabase = true) :
    Task.OnDatabase (liftM (Service.ask r)) :=
  Task.settles_liftM (Service.settles_ask hr)

theorem composes_onDatabase : Task.Composes fun _ task => task.OnDatabase :=
  Task.composes_settles (fun _ => rfl) fun _ _ => rfl

theorem Partition.SlidingList.onDatabase_reads (list : SlidingList) :
    list.Reads fun _ task => task.OnDatabase where
  throw _ := Task.settles_throw _
  partitions := Task.settles_attempt (Service.settles_ask rfl)
  default := Task.settles_attempt (Service.settles_ask rfl)
  isFull _ := Task.onDatabase_of_ask rfl
  isRetired _ := Task.onDatabase_of_ask rfl

theorem Ddl.Retrier.onDatabase_run (retrier : Retrier) (statement : String) (timing : Timing)
    (raise : Bool) : (retrier.run statement timing raise).OnDatabase :=
  settles_run ⟨fun _ => rfl, fun _ _ _ => rfl, fun _ => rfl⟩ statement timing raise

namespace Partition.Manager

/-- The work of a sync of a sliding list. -/
theorem onDatabase_syncLocked {manager : Manager} (list : SlidingList)
    (h : manager.strategy = list.strategy) : manager.syncLocked.OnDatabase := by
  refine syncLocked_of_each composes_onDatabase (fun _ => Ddl.Retrier.onDatabase_run ..) ?_
  rw [h]
  exact list.onDatabase_reads.each composes_onDatabase fun _ => Ddl.Retrier.onDatabase_run ..

/-- What becomes of the work of a sync on a database, and of the database. -/
def outcome (manager : Manager) (database : Database) :
    Except Interruption (Except Error SyncReport) × Database :=
  manager.syncLocked.toJob.run Database.answer (fun _ database => database) database

end Partition.Manager

/-! ### Replaying on a database -/

/-- Whether the lease was granted, and the database. -/
structure Replay where
  entered : Bool
  database : Database

/-- Statements and questions are answered by the database, and requests for the lease are
answered somehow. -/
def replay : Surroundings Service Replay where
  replies s r answer :=
    match r, answer with
    | .obtainLease _ _, answer => ∃ token?, answer = .ok token?
    | r, answer => r.isDatabase = true → answer = (s.database.answer r).1
  after s r answer :=
    match r, answer with
    | .obtainLease _ _, .ok (some _) => ⟨true, s.database⟩
    | r, _ => if r.isDatabase then ⟨s.entered, (s.database.answer r).2⟩ else s
  slept s _ := s
  interrupts := False

/-- One lease is asked for until it is granted, and all work is done after that and on the
database. -/
structure Permitted (key : String) (s : Replay) (r : Service.Request) : Prop where
  asks : ∀ other ttl, r = .obtainLease other ttl → other = key ∧ s.entered = false
  works : r.isWork = true → s.entered = true ∧ r.isDatabase = true

section Permitted

variable {key : String} {s : Replay} {r : Service.Request} {world : World}

theorem permitted_of_isDatabase {database : Database} (hr : r.isDatabase = true) :
    Permitted key ⟨true, database⟩ r :=
  ⟨fun other ttl heq => (by subst heq; cases hr), fun _ => ⟨rfl, hr⟩⟩

/-- What is answered by the database changes the database. -/
theorem replay_after_of_isDatabase (hr : r.isDatabase = true) (answer : Service.Answer r) :
    replay.after s r answer = ⟨s.entered, (s.database.answer r).2⟩ := by
  cases r with
  | obtainLease key ttl => cases hr
  | _ => rfl

/-- What does not belong to the work leaves the database alone. -/
theorem replay_after_of_not_work (hwork : r.isWork = false) (answer : Service.Answer r) :
    (replay.after s r answer).database = s.database := by
  cases r with
  | obtainLease key ttl =>
      match answer with
      | .ok (some token) => rfl
      | .ok none => rfl
      | .error error => rfl
  | releaseLease key token => rfl
  | canDelegate => rfl
  | count account meter n => rfl
  | log event => rfl
  | _ => cases hwork

/-- Work is answered by the database of the world. -/
theorem replies_of_permitted (hr : Permitted key s r) (hreach : world.leaseFaults.obtain = false)
    (hdatabase : r.isWork = true → world.database = s.database) :
    replay.replies s r (world.answer r).1 := by
  cases r with
  | obtainLease key ttl =>
      simp only [replay, World.answer, World.obtainLease, hreach, Bool.false_eq_true, if_false]
      exact ⟨_, rfl⟩
  | releaseLease key token =>
      intro hr
      cases hr
  | canDelegate =>
      intro hr
      cases hr
  | count account meter n => exact fun _ => rfl
  | log event => exact fun _ => rfl
  | _ =>
      intro hr
      rw [← hdatabase rfl]
      exact (world.answer_database hr).1

/-- The database of the world changes as the replayed one does. -/
theorem database_of_permitted (hr : Permitted key s r) (hdatabase : world.database = s.database) :
    (world.answer r).2.database = (replay.after s r (world.answer r).1).database := by
  by_cases hwork : r.isWork = true
  · obtain ⟨-, hr⟩ := hr.works hwork
    rw [(world.answer_database hr).2, hdatabase, replay_after_of_isDatabase hr]
  · rw [Bool.not_eq_true] at hwork
    rw [replay_after_of_not_work hwork, ← hdatabase]
    refine world.database_answer ?_
    rintro session sql rfl
    cases hwork

end Permitted

/-! ### A sync replayed -/

/-- What asks the database alone ends as on the database. -/
theorem keeps_replay {key : String} {job : Job Service α}
    (h : job.Settles fun r => r.isDatabase = true) (database : Database) :
    job.Keeps replay (Permitted key)
      (fun value s => s.entered = true ∧
        job.run Database.answer (fun _ database => database) database = (.ok value, s.database))
      (fun _ _ => False) ⟨true, database⟩ := by
  induction job generalizing database with
  | done value => exact ⟨rfl, rfl⟩
  | stop why => exact h
  | sleep length next ih => exact ⟨ih _ h.1 database, False.elim⟩
  | ask r next ih =>
      refine ⟨permitted_of_isDatabase h.1, fun answer hanswer => ?_, False.elim⟩
      obtain rfl : answer = (database.answer r).1 := by
        have hr : r.isDatabase = true := h.1
        cases r with
        | obtainLease key ttl => cases hr
        | _ => exact hanswer hr
      rw [replay_after_of_isDatabase h.1]
      exact ih _ (h.2.1 _ trivial) _

namespace Partition.Manager

/-- How a sync ends that finds the database in some state: with what becomes of its work if it
was granted the lease, and with nothing otherwise. -/
def Ends (manager : Manager) (database : Database) (value : Except Error (Option SyncReport))
    (s : Replay) : Prop :=
  if s.entered then
    ∃ result, manager.outcome database = (.ok result, s.database) ∧ value = result.map some
  else value = .ok none

variable {manager : Manager} {database : Database}

private theorem keeps_log_replay {s : Replay} {key : String} (event : Event)
    {ok : Unit → Replay → Prop} {stopped : Interruption → Replay → Prop} (hok : ok () s) :
    (Service.log event).Keeps replay (Permitted key) ok stopped s :=
  ⟨⟨nofun, nofun⟩, fun _ _ => hok, False.elim⟩

private theorem keeps_release_replay {s : Replay} {key : String} (guard : Lease.Guard)
    {ok : Bool → Replay → Prop} {stopped : Interruption → Replay → Prop} (hok : ∀ b, ok b s) :
    guard.release.Keeps replay (Permitted key) ok stopped s := by
  refine Lease.Guard.keeps_release_iff.2 ⟨⟨nofun, nofun⟩, fun answer _ => ?_, False.elim⟩
  match answer with
  | .ok true => exact hok true
  | .ok false => exact keeps_log_replay _ (hok false)
  | .error error => exact keeps_log_replay _ (hok false)

/-- **A sync ends** with what becomes of its work on the database that it finds when it is
granted the lease, or with nothing. -/
theorem keeps_sync_replay (h : manager.syncLocked.OnDatabase) (database : Database) :
    manager.sync.toJob.Keeps replay (Permitted manager.leaseKey) (manager.Ends database)
      (fun _ _ => False) ⟨false, database⟩ := by
  have hsync : manager.sync.Keeps replay (Permitted manager.leaseKey)
      (fun value s => manager.Ends database (.ok value) s)
      (fun error s => manager.Ends database (.error error) s) (fun _ _ => False)
      ⟨false, database⟩ := by
    refine Task.keeps_bind.2 (Lease.keeps_holding_iff.2
      ⟨⟨?_, nofun⟩, fun answer hanswer => ?_, False.elim⟩)
    · rintro other ttl ⟨⟩
      exact ⟨rfl, rfl⟩
    obtain ⟨token?, rfl⟩ := hanswer
    match token? with
    | none =>
        refine keeps_log_replay _ (Task.keeps_bind.2 (Task.keeps_liftM.2 ?_))
        refine ⟨⟨nofun, nofun⟩, fun _ _ => ?_, False.elim⟩
        exact Task.keeps_bind.2 (Task.keeps_liftM.2 (keeps_log_replay _ rfl))
    | some token =>
        refine Lease.Guard.keeps_protect_iff.2 (keeps_log_replay _ ?_)
        refine (keeps_replay (Job.Keeps.mono h (fun _ _ hr => hr) (fun _ _ _ => trivial)
          fun _ _ hs => hs) database).mono (fun _ _ hr => hr) (fun result s hs => ?_)
          fun _ _ => False.elim
        obtain ⟨hentered, houtcome⟩ := hs
        refine keeps_release_replay _ fun _ => ?_
        match result with
        | .ok report =>
            exact Task.keeps_map.2 (Task.keeps_attempt.2
              ((if_pos hentered).mpr ⟨.ok report, houtcome, rfl⟩))
        | .error error =>
            exact Task.keeps_map.2 (Task.keeps_attempt.2
              ((if_pos hentered).mpr ⟨.error error, houtcome, rfl⟩))
  refine Job.Keeps.mono hsync (fun _ _ hr => hr) (fun result s hs => ?_) fun _ _ hs => hs
  match result with
  | .ok value => exact hs
  | .error error => exact hs

end Partition.Manager

/-! ### Running alone -/

/-- **A job that runs alone** does to the database of the world what it does to a database of
its own. -/
theorem run_of_replay {key : String} {job : Job Service α} {ok : α → Replay → Prop} {s : Replay}
    {world : World} (h : job.Keeps replay (Permitted key) ok (fun _ _ => False) s)
    (hdatabase : world.database = s.database) (hreach : world.leaseFaults.obtain = false) :
    ∃ value after s', job.run World.answer World.elapse world = (.ok value, after) ∧
      after.database = s'.database ∧ ok value s' := by
  induction job generalizing s world with
  | done value => exact ⟨value, world, s, rfl, hdatabase, h⟩
  | stop why => exact h.elim
  | sleep length next ih => exact ih _ h.1 hdatabase hreach
  | ask r next ih =>
      have hfaults := (World.frame_answer r world).leaseFaults
      exact ih _ (h.2.1 _ (replies_of_permitted h.1 hreach fun _ => hdatabase))
        (database_of_permitted h.1 hdatabase) (hfaults ▸ hreach)

namespace Partition.Manager

/-- **A sync that nobody else is at** ends with what becomes of its work. -/
theorem run_sync_alone {manager : Manager} (h : manager.syncLocked.OnDatabase)
    (hfree : manager.strategy.LeaseFree) {world : World}
    (havailable : Lease.Available manager.leaseKey world) :
    ∃ result after, manager.sync.toJob.run World.answer World.elapse world =
        (.ok (result.map some), after) ∧
      manager.outcome world.database = (.ok result, after.database) ∧
      Lease.Available manager.leaseKey after := by
  obtain ⟨value, after, s, hrun, hafter, hends⟩ :=
    run_of_replay (manager.keeps_sync_replay h world.database) rfl havailable.obtain
  have halone := Job.run_of_keeps (keeps_sync_alone hfree havailable)
  rw [hrun] at halone
  -- The lease is free, so the sync is granted it.
  have hvalue : value ≠ .ok none ∧ Lease.Available manager.leaseKey after := by
    match value with
    | .ok none => exact absurd halone.1 (by simp)
    | .ok (some report) => exact ⟨by simp, halone.2⟩
    | .error error => exact ⟨by simp, halone⟩
  unfold Ends at hends
  split at hends
  · obtain ⟨result, houtcome, rfl⟩ := hends
    exact ⟨result, after, hrun, hafter ▸ houtcome, hvalue.2⟩
  · exact absurd hends hvalue.1

end Partition.Manager

end Upkeep
