import Upkeep.Proofs.Job.Transcript
import Upkeep.Proofs.Partition.Course
import Upkeep.Proofs.Partition.Lifetime
import Upkeep.Proofs.Partition.Parts

/-!
# Work on one table

What work on a table learns from the world is what the world has of that table, and that is all
that it changes.  If no statement fails then it does not take any time, either.

## Main Definitions

* `SeesAlike` — two worlds that answer alike what concerns a table.
* `Spares` — what work on a table leaves alone.
* `prompt` — surroundings in which statements succeed, with the time as their state.

## Main Statements

* `SeesAlike.run` — in two such worlds a job gets the same answers, and they stay such worlds.
* `spares_run` — a job that asks nothing but what concerns a table leaves the others alone.
* `now_syncLocked` — a run without failures is over at once.
-/

namespace Upkeep.Partition

open Simulation

variable {α : Type} {conditions : Conditions} {list : SlidingList} {manager : Manager}
  {world other after : World} {job : Job Service α}

/-- A job asks nothing but what concerns the list's table, in a world in which its statements are
as the conditions say. -/
abbrev WorksOn (conditions : Conditions) (list : SlidingList) (job : Job Service α)
    (world : World) : Prop :=
  job.Keeps World.answers (fun world r => Hosts conditions world ∧ Concerns conditions list True r)
    (fun _ world => Hosts conditions world) (fun _ _ => False) world

/-- **A run** works on its table, whatever it comes to. -/
theorem worksOn_syncLocked (hm : conditions.applies manager.session)
    (hl : conditions.applies list.session) (hstrategy : manager.strategy = list.strategy)
    (h : Hosts conditions world) (legible : Legible list world.catalog) :
    WorksOn conditions list manager.syncLocked.toJob world :=
  (h.keeps_of_applies (fun _ _ _ concerns => concerns.2.1)
    (minds_syncLocked hm hl hstrategy legible)).mono (fun _ _ hr => hr) (fun _ _ hs => hs.1)
    fun _ _ hs => hs.2

/-- A statement of a session whose statements never fail. -/
theorem Hosts.execute_of_not_failures (h : Hosts conditions world) (never : ¬conditions.failures)
    {session : Session} (applies : conditions.applies session) (sql : String) :
    (world.execute session sql).1 = .ok () ∧
      (world.execute session sql).2.catalog = world.catalog.execute sql := by
  obtain ⟨replies, -, changed⟩ := h.execute applies sql
  generalize (world.execute session sql).1 = result at replies changed
  match result with
  | .error failure => exact absurd replies never
  | .ok () => exact ⟨rfl, changed⟩

/-! ### Other tables -/

/-- What work on the list's table leaves alone. -/
structure Spares (list : SlidingList) (world after : World) : Prop where
  tables : ∀ table ≠ list.table, world.catalog.AgreesOn table after.catalog
  leases : after.leases = world.leases
  leaseFaults : after.leaseFaults = world.leaseFaults
  hidesCatalog : after.hidesCatalog = world.hidesCatalog

/-- A statement is executed in the catalog, or the catalog stays as it is. -/
theorem catalog_execute (world : World) (session : Session) (sql : String) :
    (world.execute session sql).2.catalog = world.catalog ∨
      (world.execute session sql).2.catalog = world.catalog.execute sql := by
  simp only [World.execute]
  split
  · exact .inl rfl
  · simp only []
    split
    · exact .inr rfl
    · exact .inl rfl

theorem Spares.answer (spares : Spares list world after) {r : Service.Request}
    (concerns : Concerns conditions list True r) : Spares list world (after.answer r).2 := by
  have frame := World.frame_answer r after
  refine ⟨fun table ne => (spares.tables table ne).trans ?_, ?_,
    frame.leaseFaults.trans spares.leaseFaults, frame.hidesCatalog.trans spares.hidesCatalog⟩
  · by_cases executes : ∃ session sql, r = .execute session sql
    · obtain ⟨session, sql, rfl⟩ := executes
      obtain same | changed := catalog_execute after session sql
      · exact same ▸ .refl _ _
      · rw [World.answer, changed]
        cases read : Sql.Change.ofSql? sql with
        | none =>
            rw [Catalog.execute_of_none read]
            exact .refl _ _
        | some change =>
            rw [Catalog.execute_of_some read]
            exact Catalog.agreesOn_apply_of_ne (concerns.2.2 change read ▸ ne.symm)
    · rw [(frame.database fun session sql heq => executes ⟨session, sql, heq⟩).2]
      exact .refl _ _
  · refine (frame.leases ?_ ?_).1.trans spares.leases
    · rintro key ttl rfl
      exact concerns
    · rintro key token rfl
      exact concerns

/-- **Work on a table** leaves the other tables alone, and all leases. -/
theorem spares_run (h : WorksOn conditions list job world) :
    Spares list world (job.run World.answer World.elapse world).2 :=
  Job.preserved_of_keeps h (fun _ _ hr spares => spares.answer hr.2)
    (fun _ _ spares => ⟨spares.tables, spares.leases, spares.leaseFaults, spares.hidesCatalog⟩)
    ⟨fun _ _ => .refl _ _, rfl, rfl, rfl⟩

/-! ### Two worlds with the same table -/

/-- Two worlds that answer alike what concerns the list's table. -/
structure SeesAlike (conditions : Conditions) (list : SlidingList) (world other : World) :
    Prop where
  hosts : Hosts conditions world
  others : Hosts conditions other
  table : world.catalog.AgreesOn list.table other.catalog
  hidesCatalog : other.hidesCatalog = world.hidesCatalog
  isFull : other.isFull = world.isFull
  isRetired : other.isRetired = world.isRetired

namespace SeesAlike

theorem elapse (alike : SeesAlike conditions list world other) (length : Duration) :
    SeesAlike conditions list (world.elapse length) (other.elapse length) :=
  ⟨alike.hosts.of_alike ⟨rfl, rfl, rfl, rfl, rfl⟩, alike.others.of_alike ⟨rfl, rfl, rfl, rfl, rfl⟩,
    alike.table, alike.hidesCatalog, alike.isFull, alike.isRetired⟩

variable (never : ¬conditions.failures)
include never

/-- What concerns the table is answered alike, and changes it alike. -/
theorem answer (alike : SeesAlike conditions list world other) {r : Service.Request}
    (concerns : Concerns conditions list True r) :
    (other.answer r).1 = (world.answer r).1 ∧
      SeesAlike conditions list (world.answer r).2 (other.answer r).2 := by
  have permitted : ∀ session sql, r = .execute session sql → conditions.applies session := by
    rintro session sql rfl
    exact concerns.2.1
  have frame := World.frame_answer r world
  have frame' := World.frame_answer r other
  have ends (same : (world.answer r).2.catalog.AgreesOn list.table (other.answer r).2.catalog) :
      SeesAlike conditions list (world.answer r).2 (other.answer r).2 :=
    ⟨(alike.hosts.answer_of_applies permitted).2.1,
      (alike.others.answer_of_applies permitted).2.1, same,
      frame'.hidesCatalog.trans (alike.hidesCatalog.trans frame.hidesCatalog.symm),
      frame'.isFull.trans (alike.isFull.trans frame.isFull.symm),
      frame'.isRetired.trans (alike.isRetired.trans frame.isRetired.symm)⟩
  cases r with
  | execute session sql =>
      obtain ⟨-, applies, own⟩ := concerns
      obtain ⟨done, changed⟩ := alike.hosts.execute_of_not_failures never applies sql
      obtain ⟨done', changed'⟩ := alike.others.execute_of_not_failures never applies sql
      refine ⟨done'.trans done.symm, ends ?_⟩
      rw [World.answer, World.answer, changed, changed']
      cases read : Sql.Change.ofSql? sql with
      | none =>
          rw [Catalog.execute_of_none read, Catalog.execute_of_none read]
          exact alike.table
      | some change =>
          rw [Catalog.execute_of_some read, Catalog.execute_of_some read]
          exact alike.table.apply (own change read)
  | listPartitions table =>
      obtain rfl : table = list.table := concerns
      refine ⟨?_, ends alike.table⟩
      simp only [World.answer, World.listPartitions, alike.hidesCatalog, alike.table.partitions]
  | readDefault table column =>
      obtain rfl : table = list.table := concerns
      refine ⟨?_, ends alike.table⟩
      simp only [World.answer, World.readDefault, alike.hidesCatalog, alike.table.default?]
  | isFull value => exact ⟨congrFun alike.isFull value, ends alike.table⟩
  | isRetired value => exact ⟨congrFun alike.isRetired value, ends alike.table⟩
  | count account meter n => exact ⟨rfl, ends alike.table⟩
  | log event => exact ⟨rfl, ends alike.table⟩
  | _ => exact concerns.elim

/-- **A job in two such worlds** gets the same answers and comes to the same end. -/
theorem run (alike : SeesAlike conditions list world other)
    (h : WorksOn conditions list job world) :
    (job.run World.answer World.elapse other).1 = (job.run World.answer World.elapse world).1 ∧
      job.transcript World.answer World.elapse other =
        job.transcript World.answer World.elapse world ∧
      SeesAlike conditions list (job.run World.answer World.elapse world).2
        (job.run World.answer World.elapse other).2 := by
  induction job generalizing world other with
  | done value => exact ⟨rfl, rfl, alike⟩
  | stop why => exact h.elim
  | sleep length next ih => exact ih (.ok ()) (alike.elapse length) h.1
  | ask r next ih =>
      have rest : WorksOn conditions list (next (.ok (world.answer r).1)) (world.answer r).2 :=
        h.2.1 _ rfl
      obtain ⟨same, alike'⟩ := alike.answer never h.1.2
      obtain ⟨results, transcripts, ends⟩ := ih _ alike' rest
      simp only [Job.run_ask, Job.transcript_ask, same]
      exact ⟨results, congrArg _ transcripts, ends⟩

end SeesAlike

/-! ### Time -/

/-- Statements succeed, nobody is interrupted, and the state is the time. -/
def prompt : Surroundings Service Duration where
  replies _ r answer :=
    match r, answer with
    | .execute _ _, .error _ => False
    | _, _ => True
  after now _ _ := now
  slept now length := now + length
  interrupts := False

/-- The task is over at once if its statements succeed. -/
def IsPrompt (task : Task α) : Prop :=
  ∀ now, task.Keeps prompt (fun _ _ => True) (fun _ after => after = now)
    (fun _ after => after = now) (fun _ _ => False) now

theorem isPrompt_ask (r : Service.Request) : IsPrompt (liftM (Service.ask r)) := fun _ =>
  Task.keeps_liftM.2 ⟨trivial, fun _ _ => rfl, False.elim⟩

theorem composes_isPrompt : Task.Composes fun _ task => IsPrompt task where
  pure _ _ := rfl
  bind first rest now := by
    refine Task.keeps_bind.2 ((first now).weaken fun value after same => ?_)
    exact same ▸ rest value _
  log _ := isPrompt_ask _
  count _ _ := isPrompt_ask _

theorem SlidingList.isPrompt_reads (list : SlidingList) :
    list.Reads fun _ task => IsPrompt task where
  throw _ _ := rfl
  partitions now :=
    Task.keeps_attempt.2 ⟨trivial, fun answer _ => by cases answer <;> rfl, False.elim⟩
  default now := Task.keeps_attempt.2 ⟨trivial, fun answer _ => by cases answer <;> rfl, False.elim⟩
  isFull _ := isPrompt_ask _
  isRetired _ := isPrompt_ask _

/-- A statement that succeeds is not tried again. -/
theorem isPrompt_run (retrier : Ddl.Retrier) (statement : String) (timing : Ddl.Timing) :
    IsPrompt (retrier.run statement timing true) := fun now => by
  have quiet : prompt.Overlooks (fun _ _ => True) fun _ _ => False :=
    ⟨fun _ _ => trivial, fun _ _ _ => rfl, fun _ _ => trivial, fun _ _ _ _ _ => rfl, False.elim⟩
  have succeeds {sql : String} {ok : Except Sql.Failure Unit → Duration → Prop} {now : Duration}
      (hok : ok (.ok ()) now) :
      (retrier.execute sql).Keeps prompt (fun _ _ => True) ok (fun _ _ => False) now := by
    refine (Service.keeps_ask (r := .execute retrier.session sql)).2 ⟨trivial, ?_, False.elim⟩
    rintro (failure | done) replies
    · exact replies.elim
    · exact hok
  refine Ddl.Retrier.keeps_run quiet (fun _ after => after = now) (fun _ after => after = now)
    (fun _ _ => False) rfl ?_ (fun _ _ same => same) fun _ _ => False.elim
  rintro number entry rest _ rfl
  exact Ddl.Retrier.keeps_attempt quiet (succeeds (succeeds (succeeds rfl)))

/-- The work of a sync is over at once if its statements succeed. -/
theorem isPrompt_syncLocked (hstrategy : manager.strategy = list.strategy) :
    IsPrompt manager.syncLocked := by
  refine Manager.syncLocked_of_each composes_isPrompt (fun _ => isPrompt_run _ _ _) ?_
  rw [hstrategy]
  exact list.isPrompt_reads.each composes_isPrompt fun _ => isPrompt_run _ _ _

/-- **Work whose statements never fail** is over at once if it is over at once where statements
succeed. -/
theorem now_run (never : ¬conditions.failures) {now : Duration} {ok : α → Duration → Prop}
    (hok : ∀ value after, ok value after → after = now) (h : WorksOn conditions list job world)
    (hprompt : job.Keeps prompt (fun _ _ => True) ok (fun _ _ => False) world.now) :
    (job.run World.answer World.elapse world).2.now = now := by
  induction job generalizing world with
  | done value => exact hok value world.now hprompt
  | stop why => exact h.elim
  | sleep length next ih => exact ih (.ok ()) h.1 hprompt.1
  | ask r next ih =>
      have answered : prompt.replies world.now r (world.answer r).1 := by
        cases r with
        | execute session sql =>
            obtain ⟨done, -⟩ := h.1.1.execute_of_not_failures never h.1.2.2.1 sql
            simp only [World.answer, done]
            exact trivial
        | _ => exact trivial
      have rest : WorksOn conditions list (next (.ok (world.answer r).1)) (world.answer r).2 :=
        h.2.1 _ rfl
      rw [Job.run_ask]
      refine ih _ rest ?_
      rw [World.now_answer]
      exact hprompt.2.1 _ answered

/-- **A run whose statements never fail** is over at once. -/
theorem now_syncLocked (never : ¬conditions.failures) (hstrategy : manager.strategy = list.strategy)
    (h : WorksOn conditions list manager.syncLocked.toJob world) :
    (manager.syncLocked.toJob.run World.answer World.elapse world).2.now = world.now :=
  now_run never (fun result after same => by cases result <;> exact same) h
    (isPrompt_syncLocked hstrategy world.now)

end Upkeep.Partition
