import Upkeep.Proofs.Ddl.Retry
import Upkeep.Proofs.Partition.InOrder
import Upkeep.Proofs.Simulation.Database
import Upkeep.Proofs.Simulation.Steps
import Upkeep.Proofs.Sql.Quoting

/-!
# Statements that succeed

The partition statements that succeed while a job runs alone, in their order.  A retried statement
either succeeds once, on whichever attempt, or it has left the database as it was, and that only
happens where statements are made to fail.

## Main Definitions

* `Statement.phase` — the order of partition statements.
* `succeeded?`, `changes` — the partition statement of a step that succeeds, and those of all steps.
* `Database.effect` — the catalog after a statement of a session has succeeded.
* `Database.Aged` — what may have become of a database, its catalog apart.
* `tracing` — surroundings that know a database and what has succeeded so far.

## Main Statements

* `World.execute_of_struck`, `World.execute_of_missed` — a statement that is made to fail, and one
  that is not.
* `Database.execute_cases` — the two ways of a statement.
* `run_of_tracing` — what a job does to a database and its trace is what it does in a world.
* `Ddl.Retrier.run_cases` — the two ways of a retried statement.
-/

namespace Upkeep

/-- Whether the statement changes partitions or a default. -/
def Sql.Statement.isPartition : Sql.Statement → Bool
  | .createPartition _ _ _ _ | .detachPartition _ _ _ | .setDefault _ _ _ => true
  | .dropIndex _ _ | .setLockTimeout _ | .resetLockTimeout => false

/-- The order in which upkeep makes changes: partitions are created, then the default is set, and
then partitions are detached. -/
def Sql.Statement.phase : Sql.Statement → Nat
  | .createPartition _ _ _ _ => 0
  | .setDefault _ _ _ => 1
  | .detachPartition _ _ _ => 2
  | .dropIndex _ _ | .setLockTimeout _ | .resetLockTimeout => 3

namespace Simulation

variable {α : Type}

/-- The partition statement that a request is, if it is one and has succeeded. -/
def succeeded? : (r : Service.Request) → Service.Answer r → Option Sql.Statement
  | .execute _ sql, .ok () => (Sql.Statement.ofText? sql).filter Sql.Statement.isPartition
  | _, _ => none

/-- The partition statements that succeed in some steps. -/
def changes (steps : List Step) : List Sql.Statement :=
  steps.filterMap fun step => succeeded? step.request (step.world.answer step.request).1

theorem changes_cons (step : Step) (steps : List Step) :
    changes (step :: steps) =
      (succeeded? step.request (step.world.answer step.request).1).toList ++ changes steps := by
  rw [changes, List.filterMap_cons]
  cases succeeded? step.request (step.world.answer step.request).1 <;> rfl

@[simp] theorem changes_append (steps steps' : List Step) :
    changes (steps ++ steps') = changes steps ++ changes steps' :=
  List.filterMap_append

/-- What is no statement succeeds with none. -/
theorem succeeded?_of_ne_execute {r : Service.Request}
    (hr : ∀ session sql, r ≠ .execute session sql)
    (answer : Service.Answer r) : succeeded? r answer = none := by
  cases r with
  | execute session sql => exact absurd rfl (hr session sql)
  | _ => rfl

/-- A job without statements succeeds with none. -/
theorem changes_of_obeys {job : Job Service α}
    (h : job.Obeys (fun r : Service.Request => ∀ session sql, r ≠ .execute session sql) True)
    (world : World) : changes (job.steps world) = [] := by
  induction job generalizing world with
  | done value => rfl
  | stop why => rfl
  | sleep length next ih => exact ih _ (h.2 _) _
  | ask r next ih =>
      rw [Job.steps, changes_cons, succeeded?_of_ne_execute h.1]
      exact ih _ (h.2 _) _

/-! ### One statement -/

namespace World

variable {world : World} {session : Session} {sql : String} {failures : List ScriptedFailure}

theorem execute_of_struck {failure : Sql.Failure}
    (h : ScriptedFailure.strike sql (world.session session).failures = (some failure, failures)) :
    world.execute session sql = (.error failure, world.setSession session
      { world.session session with
        statements := (world.session session).statements ++ [sql], failures }) := by
  rw [execute]
  simp only [h]

theorem execute_of_missed
    (h : ScriptedFailure.strike sql (world.session session).failures = (none, failures)) :
    (world.execute session sql).1 = .ok () ∧
      (world.execute session sql).2 = { world.setSession session
        { world.session session with
          statements := (world.session session).statements ++ [sql], failures } with
        catalog := if (world.session session).applies then world.catalog.execute sql
          else world.catalog } := by
  rw [execute]
  simp only [h, true_and]
  split <;> rfl

end World

namespace Database

/-- The state of a session. -/
def session (database : Database) (session : Session) : SessionState :=
  database.toWorld.session session

/-- The catalog after a statement of a session has succeeded. -/
def effect (database : Database) (session : Session) (sql : String) : Catalog :=
  if (database.session session).applies then database.catalog.execute sql else database.catalog

/-- What may have become of a database, its catalog apart: sessions remember more statements, and
fewer of them are made to fail. -/
structure Aged (before after : Database) : Prop where
  hidesCatalog : after.hidesCatalog = before.hidesCatalog
  isFull : after.isFull = before.isFull
  isRetired : after.isRetired = before.isRetired
  applies : ∀ session, (after.session session).applies = (before.session session).applies
  smooth : ∀ session, (before.session session).failures = [] →
    (after.session session).failures = []

namespace Aged

variable {before mid after : Database}

theorem refl (database : Database) : Aged database database :=
  ⟨rfl, rfl, rfl, fun _ => rfl, fun _ h => h⟩

theorem trans (h : Aged before mid) (h' : Aged mid after) : Aged before after :=
  ⟨h'.hidesCatalog.trans h.hidesCatalog, h'.isFull.trans h.isFull,
    h'.isRetired.trans h.isRetired, fun session => (h'.applies session).trans (h.applies session),
    fun session hs => h'.smooth session (h.smooth session hs)⟩

theorem effect_eq (h : Aged before after) (hcatalog : after.catalog = before.catalog)
    (session : Session) (sql : String) : after.effect session sql = before.effect session sql := by
  rw [effect, effect, h.applies, hcatalog]

end Aged

variable (database : Database) (session : Session)

/-- A statement that changes nothing has no effect. -/
theorem effect_of_none {sql : String} (h : Sql.Change.ofSql? sql = none) :
    database.effect session sql = database.catalog := by
  rw [effect, Catalog.execute_of_none h, ite_self]

/-- Only the state of one session is another. -/
private theorem aged_setSession {state : SessionState} (catalog : Catalog)
    (happlies : state.applies = (database.session session).applies)
    (hsmooth : (database.session session).failures = [] → state.failures = []) :
    Aged database { database.toWorld.setSession session state with catalog }.database := by
  have hsession (other : Session) :
      { database.toWorld.setSession session state with catalog }.database.session other =
        if other = session then state else database.session other :=
    World.session_setSession database.toWorld session other state
  refine ⟨rfl, rfl, rfl, fun other => ?_, fun other hother => ?_⟩
  · rw [hsession]
    split
    · next heq => rw [heq, happlies]
    · rfl
  · rw [hsession]
    split
    · next heq => exact hsmooth (heq ▸ hother)
    · exact hother

/-- **The two ways of a statement**: it succeeds and has its effect, or it is made to fail. -/
theorem execute_cases (sql : String) :
    Aged database (database.answer (.execute session sql)).2 ∧
      (((database.answer (.execute session sql)).1 = .ok () ∧
          (database.answer (.execute session sql)).2.catalog = database.effect session sql) ∨
        ((∃ failure, (database.answer (.execute session sql)).1 = .error failure) ∧
          (database.answer (.execute session sql)).2.catalog = database.catalog ∧
          (database.session session).failures ≠ [])) := by
  have hanswer : database.answer (.execute session sql) =
      ((database.toWorld.execute session sql).1,
        (database.toWorld.execute session sql).2.database) := rfl
  rw [hanswer]
  rcases hstruck : ScriptedFailure.strike sql (database.session session).failures with
    ⟨struck?, failures⟩
  -- Where nothing is made to fail, nothing is afterwards.
  have hsmooth (hnone : (database.session session).failures = []) :
      struck? = none ∧ failures = [] := by
    rw [hnone] at hstruck
    exact (Prod.mk.inj hstruck).imp Eq.symm Eq.symm
  cases struck? with
  | some failure =>
      rw [World.execute_of_struck hstruck]
      refine ⟨database.aged_setSession session database.catalog rfl fun hnone => (hsmooth hnone).2,
        .inr ⟨⟨failure, rfl⟩, rfl, fun hnone => ?_⟩⟩
      cases (hsmooth hnone).1
  | none =>
      obtain ⟨hdone, hafter⟩ := World.execute_of_missed hstruck
      rw [hdone, hafter]
      exact ⟨database.aged_setSession session _ rfl fun hnone => (hsmooth hnone).2,
        .inl ⟨rfl, rfl⟩⟩

end Database

/-! ### Traces -/

/-- The database answers, and partition statements that succeed are remembered. -/
def tracing : Surroundings Service (Database × List Sql.Statement) where
  replies s r answer := answer = (s.1.answer r).1
  after s r answer := ((s.1.answer r).2, s.2 ++ (succeeded? r answer).toList)
  slept s _ := s
  interrupts := False

/-- **What a job does to a database and its trace** is what it does in a world. -/
theorem run_of_tracing {job : Job Service α} {ok : α → Database × List Sql.Statement → Prop}
    {world : World} {done : List Sql.Statement}
    (h : job.Keeps tracing (fun _ r => r.isDatabase = true) ok (fun _ _ => False)
      (world.database, done)) :
    ∃ value after, job.run World.answer World.elapse world = (.ok value, after) ∧
      ok value (after.database, done ++ changes (job.steps world)) := by
  induction job generalizing world done with
  | done value => exact ⟨value, world, rfl, (List.append_nil done).symm ▸ h⟩
  | stop why => exact h.elim
  | sleep length next ih => exact @ih _ (world.elapse length) done h.1
  | ask r next ih =>
      obtain ⟨hanswer, hafter⟩ := world.answer_database h.1
      have hnext := h.2.1 (world.answer r).1 hanswer
      have hstate : tracing.after (world.database, done) r (world.answer r).1 =
          ((world.answer r).2.database, done ++ (succeeded? r (world.answer r).1).toList) :=
        Prod.ext hafter.symm rfl
      rw [hstate] at hnext
      obtain ⟨value, after, hrun, hok⟩ := ih _ hnext
      refine ⟨value, after, hrun, ?_⟩
      rw [Job.steps, changes_cons, ← List.append_assoc]
      exact hok

/-! ### A retried statement -/

/-- The database is the one that it was, but for its sessions, and nothing has succeeded. -/
structure Idle (before : Database) (s : Database × List Sql.Statement) : Prop where
  aged : before.Aged s.1
  catalog : s.1.catalog = before.catalog
  none : s.2 = []

/-- A statement of a session has succeeded, and nothing else has. -/
structure Succeeded (before : Database) (session : Session) (statement : Sql.Statement)
    (s : Database × List Sql.Statement) : Prop where
  aged : before.Aged s.1
  catalog : s.1.catalog = before.effect session statement.text
  one : s.2 = [statement].filter Sql.Statement.isPartition

end Simulation

namespace Ddl.Retrier

open Simulation

variable {retrier : Retrier} {database : Database} {s : Database × List Sql.Statement}

/-- Reports do not matter to a trace. -/
private theorem overlooks_tracing :
    tracing.Overlooks (fun _ r => r.isDatabase = true) fun _ _ => False where
  rule_log _ _ := rfl
  after_log s _ _ := Prod.ext rfl (List.append_nil s.2)
  rule_retry _ _ := rfl
  after_count s _ _ _ _ := Prod.ext rfl (List.append_nil s.2)
  stops hi _ _ := hi

private theorem succeeded?_text (session : Session) (statement : Sql.Statement) :
    (succeeded? (.execute session statement.text) (.ok ())).toList =
      [statement].filter Sql.Statement.isPartition := by
  have hread : succeeded? (.execute session statement.text) (.ok ()) =
      (some statement).filter Sql.Statement.isPartition :=
    congrArg (Option.filter _) (Sql.Statement.ofText?_text statement)
  rw [hread]
  cases hkind : statement.isPartition <;> simp [Option.filter, hkind]

private theorem keeps_execute_tracing {statement : Sql.Statement}
    {ok : Except Sql.Failure Unit → Database × List Sql.Statement → Prop}
    (hok : ∀ after, s.1.Aged after → after.catalog = s.1.effect retrier.session statement.text →
      ok (.ok ()) (after, s.2 ++ [statement].filter Sql.Statement.isPartition))
    (hfail : ∀ failure after, s.1.Aged after → after.catalog = s.1.catalog →
      (s.1.session retrier.session).failures ≠ [] → ok (.error failure) (after, s.2)) :
    (retrier.execute statement.text).Keeps tracing (fun _ r => r.isDatabase = true) ok
      (fun _ _ => False) s := by
  refine (Service.keeps_ask (r := .execute retrier.session statement.text)).2
    ⟨rfl, ?_, False.elim⟩
  rintro answer rfl
  obtain ⟨haged, ⟨hanswer, hcatalog⟩ | ⟨⟨failure, hanswer⟩, hcatalog, hfailures⟩⟩ :=
    s.1.execute_cases retrier.session statement.text
  · simp only [tracing, hanswer, succeeded?_text]
    exact hok _ haged hcatalog
  · simp only [tracing, hanswer, succeeded?, Option.toList_none, List.append_nil]
    exact hfail failure _ haged hcatalog hfailures

/-- A statement about the lock timeout makes no difference to what was there before. -/
private theorem keeps_lockTimeout {statement : Sql.Statement}
    (hnone : Sql.Change.ofSql? statement.text = none) (hkind : statement.isPartition = false)
    {ok : Except Sql.Failure Unit → Database × List Sql.Statement → Prop}
    (hok : ∀ result after, s.1.Aged after → after.catalog = s.1.catalog →
      (∀ failure, result = .error failure → (s.1.session retrier.session).failures ≠ []) →
        ok result (after, s.2)) :
    (retrier.execute statement.text).Keeps tracing (fun _ r => r.isDatabase = true) ok
      (fun _ _ => False) s := by
  refine keeps_execute_tracing (fun after haged hcatalog => ?_)
    fun failure after haged hcatalog hfailures => hok _ _ haged hcatalog fun _ _ => hfailures
  rw [Database.effect_of_none _ _ hnone] at hcatalog
  have hthis := hok (.ok ()) after haged hcatalog nofun
  rwa [List.filter_cons_of_neg (by simp [hkind]), List.filter_nil, List.append_nil]

/-- **A retried statement** succeeds once, or it leaves the database as it was; and it succeeds
where statements are not made to fail. -/
theorem keeps_run_tracing (statement : Sql.Statement) (timing : Timing) (database : Database) :
    (retrier.run statement.text timing true).Keeps tracing (fun _ r => r.isDatabase = true)
      (fun _ s => Succeeded database retrier.session statement s)
      (fun _ s => Idle database s ∧ (database.session retrier.session).failures ≠ [])
      (fun _ _ => False) (database, []) := by
  have hfailing {s : Database × List Sql.Statement} (h : Idle database s)
      (hs : (s.1.session retrier.session).failures ≠ []) :
      (database.session retrier.session).failures ≠ [] :=
    fun hnone => hs (h.aged.smooth _ hnone)
  refine keeps_run overlooks_tracing (fun _ s => Idle database s)
    (fun _ s => Succeeded database retrier.session statement s)
    (fun _ s => Idle database s ∧ (database.session retrier.session).failures ≠ [])
    ⟨.refl _, rfl, rfl⟩ (fun number entry rest s hidle => ?_) (fun _ _ h => h) fun _ _ h => h
  refine keeps_attempt overlooks_tracing (keeps_lockTimeout (Sql.ofSql?_setLockTimeout _) rfl
    fun result set haged hcatalog hfail => ?_)
  have hset : Idle database (set, s.2) :=
    ⟨hidle.aged.trans haged, hcatalog.trans hidle.catalog, hidle.none⟩
  match result with
  | .error failure => exact ⟨hset, hfailing hidle (hfail failure rfl)⟩
  | .ok () =>
      refine keeps_execute_tracing (fun done haged hdone => ?_)
        fun failure done haged hdone hfail => ?_
      · have hsucceeded : Succeeded database retrier.session statement
            (done, s.2 ++ [statement].filter Sql.Statement.isPartition) := by
          refine ⟨hset.aged.trans haged, hdone.trans (hset.aged.effect_eq hset.catalog _ _), ?_⟩
          rw [hidle.none, List.nil_append]
        refine keeps_lockTimeout Sql.ofSql?_resetLockTimeout rfl fun _ after haged hafter _ => ?_
        exact ⟨hsucceeded.aged.trans haged, hafter.trans hsucceeded.catalog, hsucceeded.one⟩
      · have hundone : Idle database (done, s.2) :=
          ⟨hset.aged.trans haged, hdone.trans hset.catalog, hidle.none⟩
        refine keeps_lockTimeout Sql.ofSql?_resetLockTimeout rfl fun _ after haged hafter _ => ?_
        have hafter : Idle database (after, s.2) :=
          ⟨hundone.aged.trans haged, hafter.trans hundone.catalog, hidle.none⟩
        refine verdict_error (fun _ => ?_) fun _ => ⟨hafter, hfailing hset hfail⟩
        dsimp only
        split
        · exact ⟨hafter, hfailing hset hfail⟩
        · exact Service.keeps_sleep.2 ⟨hafter, False.elim⟩

/-- The two ways of a retried statement in a world. -/
theorem run_cases (retrier : Retrier) (statement : Sql.Statement) (timing : Timing)
    (world : World) :
    let steps := (retrier.run statement.text timing true).toJob.steps world
    ∃ result after,
      (retrier.run statement.text timing true).toJob.run World.answer World.elapse world =
        (.ok result, after) ∧
      match result with
      | .ok _ =>
          Succeeded world.database retrier.session statement (after.database, changes steps)
      | .error _ => Idle world.database (after.database, changes steps) ∧
          (world.database.session retrier.session).failures ≠ [] := by
  have hkeeps : (retrier.run statement.text timing true).Keeps _ _ _ _ _ _ :=
    keeps_run_tracing statement timing world.database
  obtain ⟨result, after, hrun, hend⟩ := run_of_tracing hkeeps
  refine ⟨result, after, hrun, ?_⟩
  match result with
  | .ok outcome => exact hend
  | .error error => exact hend

end Ddl.Retrier

end Upkeep
