import Upkeep.Proofs.Ddl.Course
import Upkeep.Proofs.Partition.Changes
import Upkeep.Proofs.Partition.Course
import Upkeep.Proofs.Partition.Lifetime

/-!
# The accounts of a table

Upkeep counts the partitions that it creates and those that it detaches.  A statement succeeds
first and is counted then, so there are moments at which the counts are behind; the accounts of a
table are closed whenever nothing has succeeded that is not counted.  Between statements nothing
becomes of them.

## Main Definitions

* `Accounted` — counts and partitions are what they were before, and what statements have changed.
* `tracingWorld` — surroundings that know the world and what has succeeded so far.
* `Uncounted`, `Still` — statements that nothing has been counted of, and no statements.
* `Books` — a table with a roster and closed accounts.
* `KeepsBooks` — a task that leaves closed accounts behind when it fails.

## Main Statements

* `keepsBooks_decision` — decisions and reports leave the accounts alone.
* `keeps_retried_uncounted` — a retried statement.
* `keepsBooks_entry` — a statement that is counted when it has succeeded.
-/

namespace Upkeep

/-- Whether the statement creates a partition. -/
def Sql.Statement.isCreate : Statement → Bool
  | .createPartition _ _ _ _ => true
  | _ => false

/-- Whether the statement detaches a partition. -/
def Sql.Statement.isDetach : Statement → Bool
  | .detachPartition _ _ _ => true
  | _ => false

/-- Whether the request is a statement or counts partitions. -/
def Service.Request.isBooked : Service.Request → Bool
  | .execute _ _ | .count _ (.partitionsCreated _) _ | .count _ (.partitionsDetached _) _ => true
  | _ => false

namespace Simulation

variable {α : Type} {world after : World} {done : List Sql.Statement}

/-! ### Traces in a world -/

/-- The world answers, and partition statements that succeed are remembered. -/
def tracingWorld : Surroundings Service (World × List Sql.Statement) where
  replies s r answer := answer = (s.1.answer r).1
  after s r answer := ((s.1.answer r).2, s.2 ++ (succeeded? r answer).toList)
  slept s length := (s.1.elapse length, s.2)
  interrupts := False

/-- What a job does to a world and its trace is how it runs there. -/
theorem run_of_tracingWorld {job : Job Service α} {ok : α → World × List Sql.Statement → Prop}
    (h : job.Keeps tracingWorld (fun _ _ => True) ok (fun _ _ => False) (world, done)) :
    ∃ value after, job.run World.answer World.elapse world = (.ok value, after) ∧
      ok value (after, done ++ changes (job.steps world)) := by
  induction job generalizing world done with
  | done value => exact ⟨value, world, rfl, (List.append_nil done).symm ▸ h⟩
  | stop why => exact h.elim
  | sleep length next ih => exact ih _ h.1
  | ask r next ih =>
      obtain ⟨value, after, run, end_⟩ := ih _ (h.2.1 _ rfl)
      refine ⟨value, after, run, ?_⟩
      rw [Job.steps, changes_cons, ← List.append_assoc]
      exact end_

/-- How a job runs is what it does to the world and its trace. -/
theorem keeps_tracingWorld {job : Job Service α} {ok : α → World × List Sql.Statement → Prop}
    {value : α} (run : job.run World.answer World.elapse world = (.ok value, after))
    (end_ : ok value (after, done ++ changes (job.steps world))) :
    job.Keeps tracingWorld (fun _ _ => True) ok (fun _ _ => False) (world, done) := by
  induction job generalizing world done with
  | done value' =>
      cases run
      exact List.append_nil done ▸ end_
  | stop why => cases run
  | sleep length next ih => exact ⟨ih _ run end_, False.elim⟩
  | ask r next ih =>
      refine ⟨trivial, ?_, False.elim⟩
      rintro answer rfl
      rw [Job.steps, changes_cons, ← List.append_assoc] at end_
      exact ih _ run end_

end Simulation

namespace Partition

open Simulation

variable {α : Type} {list : SlidingList} {manager : Manager} {ps : List Partition}
  {account : Account} {table : String} {before mid after : World}
  {s s' s'' : World × List Sql.Statement}

/-! ### Accounts -/

/-- What is counted of a table's partitions, and how many of them are attached, is what it was
before and what some statements have changed of it. -/
structure Accounted (account : Account) (table : String) (before after : World)
    (changed : List Sql.Statement) : Prop where
  created : after.tally account (.partitionsCreated table) =
    before.tally account (.partitionsCreated table) +
      UInt64.ofNat (changed.countP Sql.Statement.isCreate)
  detached : after.tally account (.partitionsDetached table) =
    before.tally account (.partitionsDetached table) +
      UInt64.ofNat (changed.countP Sql.Statement.isDetach)
  attached : (after.catalog.partitions table).length + changed.countP Sql.Statement.isDetach =
    (before.catalog.partitions table).length + changed.countP Sql.Statement.isCreate

namespace Accounted

theorem refl (account : Account) (table : String) (world : World) :
    Accounted account table world world [] :=
  ⟨(UInt64.add_zero _).symm, (UInt64.add_zero _).symm, rfl⟩

theorem trans {changed changed' : List Sql.Statement}
    (h : Accounted account table before mid changed)
    (h' : Accounted account table mid after changed') :
    Accounted account table before after (changed ++ changed') where
  created := by
    rw [h'.created, h.created, List.countP_append, UInt64.ofNat_add, UInt64.add_assoc]
  detached := by
    rw [h'.detached, h.detached, List.countP_append, UInt64.ofNat_add, UInt64.add_assoc]
  attached := by
    have first := h.attached
    have second := h'.attached
    simp only [List.countP_append]
    omega

end Accounted

/-- Some statements have succeeded since, and nothing was counted of partitions. -/
structure Uncounted (manager : Manager) (list : SlidingList) (catalog : Catalog)
    (changed : List Sql.Statement) (s s' : World × List Sql.Statement) : Prop where
  hosts : Hosts (unruly manager list) s'.1
  catalog_eq : s'.1.catalog = catalog
  trace_eq : s'.2 = s.2 ++ changed
  created : s'.1.tally manager.account (.partitionsCreated list.table) =
    s.1.tally manager.account (.partitionsCreated list.table)
  detached : s'.1.tally manager.account (.partitionsDetached list.table) =
    s.1.tally manager.account (.partitionsDetached list.table)

/-- Nothing has succeeded since. -/
abbrev Still (manager : Manager) (list : SlidingList) (s s' : World × List Sql.Statement) : Prop :=
  Uncounted manager list s.1.catalog [] s s'

namespace Still

theorem refl (hosts : Hosts (unruly manager list) s.1) : Still manager list s s :=
  ⟨hosts, rfl, (List.append_nil _).symm, rfl, rfl⟩

theorem trans (h : Still manager list s s') (h' : Still manager list s' s'') :
    Still manager list s s'' where
  hosts := h'.hosts
  catalog_eq := h'.catalog_eq.trans h.catalog_eq
  trace_eq := by rw [h'.trace_eq, h.trace_eq, List.append_nil]
  created := h'.created.trans h.created
  detached := h'.detached.trans h.detached

theorem elapse (h : Still manager list s s') (length : Duration) :
    Still manager list s (tracingWorld.slept s' length) :=
  ⟨h.hosts.of_alike ⟨rfl, rfl, rfl, rfl, rfl⟩, h.catalog_eq, h.trace_eq, h.created, h.detached⟩

/-- What is neither a statement nor counts partitions makes no difference. -/
theorem answer (h : Still manager list s s') {r : Service.Request} (quiet : r.isBooked = false) :
    Still manager list s (tracingWorld.after s' r (s'.1.answer r).1) := by
  have other : ∀ session sql, r ≠ .execute session sql := by
    rintro session sql rfl
    cases quiet
  have counted (meter : Meter) (unread : ∀ account n, r ≠ .count account meter n) :
      (s'.1.answer r).2.tally manager.account meter = s'.1.tally manager.account meter := by
    have none : Exchange.counted manager.account meter ⟨r, (s'.1.answer r).1⟩ = 0 := by
      cases r with
      | count account' meter' n =>
          refine if_neg fun same => unread account' n ?_
          rw [same.2]
      | _ => rfl
    rw [World.tally_answer, none, UInt64.add_zero]
  refine ⟨(h.hosts.answer_of_applies fun session sql same => absurd same (other session sql)).2.1,
    ((World.frame_answer r s'.1).database other).2.trans h.catalog_eq, ?_,
    (counted _ ?_).trans h.created, (counted _ ?_).trans h.detached⟩
  · show s'.2 ++ (succeeded? r _).toList = _
    rw [succeeded?_of_ne_execute other, Option.toList_none, List.append_nil, h.trace_eq]
  · rintro account n rfl
    cases quiet
  · rintro account n rfl
    cases quiet

end Still

/-! ### Closed accounts -/

/-- The table has a roster, and its accounts are closed. -/
structure Books (manager : Manager) (list : SlidingList) (before : World) (ps : List Partition)
    (s : World × List Sql.Statement) : Prop where
  hosts : Hosts (unruly manager list) s.1
  roster : Roster list s.1.catalog ps
  accounted : Accounted manager.account list.table before s.1 s.2

theorem Books.still (books : Books manager list before ps s) (still : Still manager list s s') :
    Books manager list before ps s' := by
  have accounted : Accounted manager.account list.table s.1 s'.1 [] := by
    refine ⟨still.created.trans (UInt64.add_zero _).symm,
      still.detached.trans (UInt64.add_zero _).symm, ?_⟩
    rw [still.catalog_eq]
    rfl
  exact ⟨still.hosts, still.catalog_eq ▸ books.roster,
    still.trace_eq ▸ books.accounted.trans accounted⟩

/-- The accounts are closed where the task fails, and its values are as demanded. -/
abbrev KeepsBooks (manager : Manager) (list : SlidingList) (before : World)
    (ok : α → World × List Sql.Statement → Prop) (task : Task α)
    (s : World × List Sql.Statement) : Prop :=
  task.Keeps tracingWorld (fun _ _ => True) ok
    (fun _ s => ∃ ps, Books manager list before ps s) (fun _ _ => False) s

/-- One request that makes no difference. -/
theorem keeps_ask_still (hosts : Hosts (unruly manager list) s.1) {r : Service.Request}
    (quiet : r.isBooked = false) {ok : Service.Answer r → World × List Sql.Statement → Prop}
    {stopped : Interruption → World × List Sql.Statement → Prop}
    (h : ∀ answer s', Still manager list s s' → ok answer s') :
    (Service.ask r).Keeps tracingWorld (fun _ _ => True) ok stopped s := by
  refine Service.keeps_ask.2 ⟨trivial, ?_, False.elim⟩
  rintro answer rfl
  exact h _ _ ((Still.refl hosts).answer quiet)

theorem watches_unbooked : Watches (fun _ r => r.isBooked = false) list :=
  ⟨fun _ => rfl, fun _ => rfl, fun _ _ => rfl, fun _ _ => rfl, fun _ _ => rfl, fun _ _ => rfl⟩

/-- **A decision** makes no difference, and is known by the catalog. -/
theorem keepsBooks_decision (books : Books manager list before ps s) {task : Task α}
    (decided : α → Catalog → Prop)
    (h : task.Keeps (database (unruly manager list)) (fun _ r => r.isBooked = false) decided
      anyFailure (fun _ _ => False) s.1.catalog)
    {ok : α → World × List Sql.Statement → Prop}
    (hok : ∀ value s', Still manager list s s' → decided value s'.1.catalog → ok value s') :
    KeepsBooks manager list before ok task s := by
  have projected := @Job.Keeps.project _ _ _ _ tracingWorld (database (unruly manager list))
    (fun s => s.1.catalog) (Still manager list s) _ _ _ _ s h (.refl books.hosts)
    (fun s' r answer still quiet same => ?_) (fun s' length still => ⟨still.elapse length, rfl⟩) id
  · refine Job.Keeps.mono projected (fun _ _ _ => trivial) ?_ fun _ _ stopped => stopped.2
    rintro result s' ⟨still, kept⟩
    match result with
    | .ok value => exact hok value s' still kept
    | .error error => exact ⟨ps, books.still still⟩
  · subst same
    have known := still.hosts.answer_of_applies (r := r) fun session sql same => by
      subst same
      cases quiet
    exact ⟨known.1, still.answer quiet, known.2.2⟩

/-! ### Statements -/

/-- **A retried statement** has succeeded, or it makes no difference. -/
theorem keeps_retried_uncounted (hosts : Hosts (unruly manager list) s.1) (retrier : Ddl.Retrier)
    (applies : (unruly manager list).applies retrier.session) (statement : Sql.Statement)
    (timing : Ddl.Timing) :
    (retrier.run statement.text timing true).Keeps tracingWorld (fun _ _ => True)
      (fun _ s' => Uncounted manager list (s.1.catalog.execute statement.text)
        ([statement].filter Sql.Statement.isPartition) s s')
      (fun _ s' => Still manager list s s') (fun _ _ => False) s := by
  obtain ⟨result, after, run, end_⟩ := retrier.run_cases statement timing s.1
  have tally {meter : Meter} (other : meter ≠ .lockRetries) :
      after.tally manager.account meter = s.1.tally manager.account meter := by
    have same := retrier.tally_run statement.text manager.account other timing true s.1
    rwa [run] at same
  have hosts_of {after : World} (aged : s.1.database.Aged after.database) :
      Hosts (unruly manager list) after := by
    obtain ⟨executes, moves⟩ := hosts_unruly.1 hosts
    exact hosts_unruly.2 ⟨(aged.applies _).trans executes, (aged.applies _).trans moves⟩
  refine keeps_tracingWorld run ?_
  match result with
  | .ok outcome =>
      have changed : after.catalog = s.1.catalog.execute statement.text := by
        refine end_.catalog.trans ?_
        have executes : (s.1.database.session retrier.session).applies = true :=
          hosts.applies _ applies
        rw [Database.effect, if_pos executes]
        rfl
      exact ⟨hosts_of end_.aged, changed, congrArg (s.2 ++ ·) end_.one, tally Meter.noConfusion,
        tally Meter.noConfusion⟩
  | .error error =>
      exact ⟨hosts_of end_.1.aged, end_.1.catalog, congrArg (s.2 ++ ·) end_.1.none,
        tally Meter.noConfusion, tally Meter.noConfusion⟩

/-- **A statement that is counted** when it has succeeded, and then logged: the accounts are closed
again after that if it is counted as what it is. -/
theorem keepsBooks_entry (books : Books manager list before ps s) {statement : Sql.Statement}
    (partition : statement.isPartition = true) {meter : Meter} {event : Event} {rest : Task α}
    {ok : α → World × List Sql.Statement → Prop} {ps' : List Partition}
    (roster : Roster list (s.1.catalog.execute statement.text) ps')
    (closes : ∀ s', Uncounted manager list (s.1.catalog.execute statement.text) [statement] s s' →
      Accounted manager.account list.table s.1
        (s'.1.answer (.count manager.account meter 1)).2 [statement])
    (hrest : ∀ s', Books manager list before ps' s' → s'.2 = s.2 ++ [statement] →
      KeepsBooks manager list before ok rest s') :
    KeepsBooks manager list before ok
      (do
        manager.execute statement
        Service.count manager.account meter
        Service.log event
        rest) s := by
  have run := keeps_retried_uncounted books.hosts manager.retrier (.inl rfl) statement
    manager.settings.timing
  rw [List.filter_cons_of_pos partition, List.filter_nil] at run
  refine Task.keeps_bind.2 (Task.keeps_bind.2 (run.mono (fun _ _ hr => hr)
    (fun outcome s₁ uncounted => Task.keeps_pure.2 ?_)
    (fun _ s' still => ⟨ps, books.still still⟩) fun _ _ hs => hs))
  refine Task.keeps_bind.2 (Task.keeps_liftM.2
    (Service.keeps_count.2 ⟨trivial, ?_, False.elim⟩))
  rintro answer rfl
  have counted : Books manager list before ps' (tracingWorld.after s₁
      (.count manager.account meter 1) (s₁.1.answer (.count manager.account meter 1)).1) := by
    refine ⟨uncounted.hosts.of_alike ⟨rfl, rfl, rfl, rfl, rfl⟩, ?_, ?_⟩
    · exact uncounted.catalog_eq ▸ roster
    · show Accounted manager.account list.table before _ (s₁.2 ++ [])
      rw [List.append_nil, uncounted.trace_eq]
      exact books.accounted.trans (closes s₁ uncounted)
  refine Task.keeps_bind.2 (Task.keeps_liftM.2 (keeps_ask_still counted.hosts rfl
    fun _ s₂ still => hrest s₂ (counted.still still) ?_))
  rw [still.trace_eq, List.append_nil, ← uncounted.trace_eq]
  exact List.append_nil s₁.2

end Partition

end Upkeep
