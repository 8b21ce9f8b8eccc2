import Upkeep.Proofs.Lease.Work
import Upkeep.Proofs.Partition.Changes
import Upkeep.Proofs.Partition.Lifetime
import Upkeep.Proofs.Partition.Parts

/-!
# Two runs in twin worlds

Two runs of upkeep on the same table, one in which statements may fail and one in which none of
them does, do the same until the first of them stops for good.

## Main Definitions

* `Twin` — two databases that differ in what is made to fail.
* `Parallel`, `Tracks` — two runs in twins, of which the first may fall behind.

## Main Statements

* `composes_tracks` — sequences.
* `tracks_retried` — retried statements.
* `tracks_syncLocked` — a run under the lease.

## Design Notes

The values of retried statements differ between the two runs, because one of them may need more
attempts.  So it is a retried statement with what comes after it that tracks, which makes no use of
the value.
-/

namespace Upkeep.Partition

open Simulation

variable {α β : Type} {used : Session → Prop} {list : SlidingList} {manager : Manager}

/-! ### Twins -/

/-- Two databases that agree in all but in what is made to fail, and in the second of which no
statement of a session in use is. -/
structure Twin (used : Session → Prop) (database free : Database) : Prop where
  catalog : free.catalog = database.catalog
  hidesCatalog : free.hidesCatalog = database.hidesCatalog
  isFull : free.isFull = database.isFull
  isRetired : free.isRetired = database.isRetired
  applies : ∀ session, (free.session session).applies = (database.session session).applies
  smooth : ∀ session, used session → (free.session session).failures = []

namespace Twin

variable {database free database' free' : Database}

theorem effect_eq (h : Twin used database free) (session : Session) (sql : String) :
    free.effect session sql = database.effect session sql := by
  rw [Database.effect, Database.effect, h.applies, h.catalog]

/-- Twins stay twins if their catalogs do. -/
theorem aged (h : Twin used database free) (haged : database.Aged database')
    (haged' : free.Aged free') (hcatalog : free'.catalog = database'.catalog) :
    Twin used database' free' where
  catalog := hcatalog
  hidesCatalog := by rw [haged'.hidesCatalog, h.hidesCatalog, haged.hidesCatalog]
  isFull := by rw [haged'.isFull, h.isFull, haged.isFull]
  isRetired := by rw [haged'.isRetired, h.isRetired, haged.isRetired]
  applies session := by rw [haged'.applies, h.applies, haged.applies]
  smooth session hs := haged'.smooth session (h.smooth session hs)

end Twin

/-! ### Two runs -/

/-- Two runs, of which the first does what the second does, or falls behind for good: it fails
after a part of what the other does, in a catalog that the other passes through. -/
inductive Parallel (used : Session → Prop) (task task' : Task α) (world free : World) : Prop
  | together {result : Except Error α} {after after' : World}
      (run : task.toJob.run World.answer World.elapse world = (.ok result, after))
      (run' : task'.toJob.run World.answer World.elapse free = (.ok result, after'))
      (twin : Twin used after.database after'.database)
      (same : changes (task.toJob.steps world) = changes (task'.toJob.steps free))
  | behind {error : Error} {after : World}
      (run : task.toJob.run World.answer World.elapse world = (.ok (.error error), after))
      (fewer : changes (task.toJob.steps world) <+: changes (task'.toJob.steps free))
      (passed : after.catalog ∈ catalogs free.catalog (task'.toJob.steps free))

/-- In twins the task does the same, or falls behind. -/
def Tracks (used : Session → Prop) (α : Type) (task : Task α) : Prop :=
  ∀ world free : World, Twin used world.database free.database →
    Parallel used task task world free

theorem mem_catalogs_append {start : Catalog} {steps steps' : List Step} {catalog : Catalog}
    (h : catalog ∈ catalogs start steps) : catalog ∈ catalogs start (steps ++ steps') := by
  rw [catalogs, List.map_append, ← List.cons_append]
  exact List.mem_append_left _ h

/-- What is passed through after a job is passed through. -/
theorem mem_catalogs_of_run {job : Job Service α} {world after : World}
    {result : Except Interruption α} {steps : List Step} {catalog : Catalog}
    (hrun : job.run World.answer World.elapse world = (result, after))
    (h : catalog ∈ catalogs after.catalog steps) :
    catalog ∈ catalogs world.catalog (job.steps world ++ steps) := by
  rcases List.mem_cons.1 h with rfl | h
  · have hlast := (linked_steps job world).2
    rw [hrun] at hlast
    exact mem_catalogs_append (List.mem_of_getLast? hlast)
  · rw [catalogs, List.map_append]
    exact List.mem_cons_of_mem _ (List.mem_append_right _ h)

/-- Where the first parts of two sequences go together, it depends on the second parts. -/
theorem Parallel.bind {task : Task α} {f : α → Task β} {value value' : α}
    {world free after after' : World}
    (hrun : task.toJob.run World.answer World.elapse world = (.ok (.ok value), after))
    (hrun' : task.toJob.run World.answer World.elapse free = (.ok (.ok value'), after'))
    (hsame : changes (task.toJob.steps world) = changes (task.toJob.steps free))
    (h : Parallel used (f value) (f value') after after') :
    Parallel used (task >>= f) (task >>= f) world free := by
  obtain ⟨hbind, hsteps⟩ := Task.bind_of_ok (f := f) hrun
  obtain ⟨hbind', hsteps'⟩ := Task.bind_of_ok (f := f) hrun'
  cases h with
  | together run run' twin same =>
      refine .together (hbind.trans run) (hbind'.trans run') twin ?_
      rw [hsteps, hsteps', changes_append, changes_append, hsame, same]
  | behind run fewer passed =>
      refine .behind (hbind.trans run) ?_ ?_
      · rw [hsteps, hsteps', changes_append, changes_append, hsame]
        exact (List.prefix_append_right_inj _).2 fewer
      · rw [hsteps']
        exact mem_catalogs_of_run hrun' passed

/-- **Sequences** of what tracks track. -/
theorem tracks_bind {task : Task α} {f : α → Task β} (h : Tracks used α task)
    (hf : ∀ value, Tracks used β (f value)) : Tracks used β (task >>= f) := by
  intro world free htwin
  cases h world free htwin with
  | @together result after after' run run' twin same =>
      match result with
      | .ok value => exact .bind run run' same (hf value after after' twin)
      | .error error =>
          obtain ⟨hbind, hsteps⟩ := Task.bind_of_error (f := f) run
          obtain ⟨hbind', hsteps'⟩ := Task.bind_of_error (f := f) run'
          exact .together hbind hbind' twin (by rw [hsteps, hsteps', same])
  | behind run fewer passed =>
      obtain ⟨hbind, hsteps⟩ := Task.bind_of_error (f := f) run
      have hsteps' : ∃ rest, (task >>= f).toJob.steps free = task.toJob.steps free ++ rest :=
        ⟨_, Job.steps_bind task.toJob _ free⟩
      obtain ⟨rest, hsteps'⟩ := hsteps'
      refine .behind hbind ?_ ?_
      · rw [hsteps, hsteps', changes_append]
        exact fewer.trans (List.prefix_append _ _)
      · rw [hsteps']
        exact mem_catalogs_append passed

/-- **What two such runs have in common**, however they end. -/
theorem Parallel.progress {task : Task α} {world free after after' : World}
    {result result' : Except Error α} (h : Parallel used task task world free)
    (hrun : task.toJob.run World.answer World.elapse world = (.ok result, after))
    (hrun' : task.toJob.run World.answer World.elapse free = (.ok result', after')) :
    changes (task.toJob.steps world) <+: changes (task.toJob.steps free) ∧
      ((∃ value, result = .ok value ∧ result' = .ok value ∧
          changes (task.toJob.steps world) = changes (task.toJob.steps free)) ∨
        ∃ error, result = .error error) ∧
      after.catalog ∈ catalogs free.catalog (task.toJob.steps free) := by
  cases h with
  | @together shared end₁ end₂ run run' twin same =>
      obtain ⟨hshared, rfl⟩ := Prod.mk.inj (run.symm.trans hrun)
      obtain ⟨hshared', rfl⟩ := Prod.mk.inj (run'.symm.trans hrun')
      obtain rfl := Except.ok.inj hshared
      obtain rfl := Except.ok.inj hshared'
      refine ⟨same ▸ List.prefix_rfl, ?_, ?_⟩
      · cases shared with
        | ok value => exact .inl ⟨value, rfl, rfl, same⟩
        | error error => exact .inr ⟨error, rfl⟩
      · have hcatalog : end₂.catalog = end₁.catalog := twin.catalog
        have hlast : end₂.catalog ∈ catalogs free.catalog (task.toJob.steps free ++ []) :=
          mem_catalogs_of_run hrun' List.mem_cons_self
        rwa [List.append_nil, hcatalog] at hlast
  | @behind error stuck run fewer passed =>
      obtain ⟨hfailed, rfl⟩ := Prod.mk.inj (run.symm.trans hrun)
      exact ⟨fewer, .inr ⟨error, (Except.ok.inj hfailed).symm⟩, passed⟩

/-- What twins answer alike and no statement is. -/
theorem tracks_of_answer {task : Task α} {r : Service.Request}
    {f : Service.Answer r → Except Error α}
    (hjob : task.toJob = (Service.ask r).bind fun answer => .done (f answer))
    (hcalm : r.isCalm = true)
    (hanswer : ∀ world free : World, Twin used world.database free.database →
      (free.answer r).1 = (world.answer r).1) : Tracks used α task := by
  have hr : ∀ session sql, r ≠ .execute session sql := Service.Request.ne_execute_of_isCalm hcalm
  intro world free htwin
  have hrun (world : World) : task.toJob.run World.answer World.elapse world =
      (.ok (f (world.answer r).1), (world.answer r).2) := by
    rw [hjob]
    rfl
  have hnone (world : World) : changes (task.toJob.steps world) = [] :=
    changes_of_obeys (hjob ▸ (Service.obeys_ask hr).bind fun _ => trivial) world
  have htwin' : Twin used (world.answer r).2.database (free.answer r).2.database := by
    rw [world.database_answer hr, free.database_answer hr]
    exact htwin
  refine .together (hrun world) ?_ htwin' ((hnone world).trans (hnone free).symm)
  rw [hrun, hanswer world free htwin]

theorem tracks_result (result : Except Error α) : Tracks used α (ExceptT.mk (.done result)) :=
  fun _ _ htwin => .together rfl rfl htwin rfl

theorem composes_tracks : Task.Composes (Tracks used) where
  pure value := tracks_result (.ok value)
  bind := tracks_bind
  log event := tracks_of_answer (r := .log event) (f := .ok) rfl rfl fun _ _ _ => rfl
  count account meter :=
    tracks_of_answer (r := .count account meter 1) (f := .ok) rfl rfl fun _ _ _ => rfl

/-- Twins list the same, have the same default, and belong to the same application. -/
theorem tracks_reads (list : SlidingList) : list.Reads (Tracks used) where
  throw error := tracks_result (.error error)
  partitions := by
    refine tracks_of_answer (r := .listPartitions list.table) (f := id) (Job.bind_done _).symm rfl
      fun world free htwin => ?_
    have hcatalog : free.catalog = world.catalog := htwin.catalog
    have hhides : free.hidesCatalog = world.hidesCatalog := htwin.hidesCatalog
    show free.listPartitions list.table = world.listPartitions list.table
    rw [World.listPartitions, World.listPartitions, hcatalog, hhides]
  default := by
    refine tracks_of_answer (r := .readDefault list.table list.column) (f := id)
      (Job.bind_done _).symm rfl fun world free htwin => ?_
    have hcatalog : free.catalog = world.catalog := htwin.catalog
    have hhides : free.hidesCatalog = world.hidesCatalog := htwin.hidesCatalog
    show free.readDefault list.table list.column = world.readDefault list.table list.column
    rw [World.readDefault, World.readDefault, hcatalog, hhides]
  isFull value := tracks_of_answer (r := .isFull value) (f := .ok) rfl rfl
    fun _ _ htwin => congrFun htwin.isFull value
  isRetired value := tracks_of_answer (r := .isRetired value) (f := .ok) rfl rfl
    fun _ _ htwin => congrFun htwin.isRetired value

/-- **A retried statement** with what comes after it. -/
theorem tracks_retried {retrier : Ddl.Retrier} (hused : used retrier.session)
    (statement : Sql.Statement) (timing : Ddl.Timing) {task : Task α} (h : Tracks used α task) :
    Tracks used α (retrier.run statement.text timing true >>= fun _ => task) := by
  intro world free htwin
  obtain ⟨result, after, hrun, hend⟩ := Ddl.Retrier.run_cases retrier statement timing world
  obtain ⟨result', after', hrun', hend'⟩ := Ddl.Retrier.run_cases retrier statement timing free
  match result' with
  | .error error => exact absurd (htwin.smooth retrier.session hused) hend'.2
  | .ok outcome' =>
      match result with
      | .ok outcome =>
          have hcatalog : after'.catalog = after.catalog := by
            rw [show after'.catalog = _ from hend'.catalog,
              show after.catalog = _ from hend.catalog, htwin.effect_eq]
          exact .bind hrun hrun' (hend.one.trans hend'.one.symm)
            (h after after' (htwin.aged hend.aged hend'.aged hcatalog))
      | .error error =>
          obtain ⟨hbind, hsteps⟩ := Task.bind_of_error (f := fun _ => task) hrun
          have hnone : changes ((retrier.run statement.text timing true).toJob.steps world) = [] :=
            hend.1.none
          have hcatalog : after.catalog = free.catalog := hend.1.catalog.trans htwin.catalog.symm
          refine .behind hbind ?_ (hcatalog ▸ List.mem_cons_self)
          rw [hsteps, hnone]
          exact List.nil_prefix

/-- **A run under the lease** does in twins the same, or falls behind. -/
theorem tracks_syncLocked (hstrategy : manager.strategy = list.strategy)
    (hmanager : used manager.session) (hlist : used list.session) :
    Tracks used SyncReport manager.syncLocked := by
  refine Manager.syncLocked_of_execute composes_tracks ?_ fun statement =>
    tracks_retried hmanager statement _ (tracks_result (.ok ()))
  rw [hstrategy]
  exact (tracks_reads list).each_of_moves composes_tracks fun value =>
    tracks_retried hlist (list.setDefaultStatement value) _ (composes_tracks.log _)

end Upkeep.Partition
