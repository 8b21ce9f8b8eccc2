import Upkeep.Proofs.Ddl.Course
import Upkeep.Proofs.Lease.Exits
import Upkeep.Proofs.Lease.Span
import Upkeep.Proofs.Simulation.Frame

/-!
# What remains of leases

A job that asks for leases and gives each of them back leaves the store as it found it: there is
no entry that was not there before, and none of a key whose lease it was granted.  This holds of
work under a lease, whoever had the lease before and however long the work takes, and it is passed
on to sequences.

## Main Definitions

* `Doing.obtained` — a lease was asked for.
* `Cleared` — nothing remains of the leases that were granted in a diary.
* `ReturnsAll` — nothing remains of the leases of a job that runs alone to its end.

## Main Statements

* `ReturnsAll.bind`, `returnsAll_holding` — sequences, and work under a lease.
-/

namespace Upkeep

variable {α β : Type}

/-- A lease is asked for, and this is the answer. -/
def Doing.obtained (key : String) (ttl : Duration) (answer : Except Error (Option Lease.Token)) :
    Doing Service :=
  .asked ⟨.obtainLease key ttl, answer⟩

namespace Job

variable {σ : Type} {answer : (r : Service.Request) → σ → Service.Answer r × σ}
  {elapse : Duration → σ → σ} {s : σ} {job : Job Service α}

/-- A job that makes no other requests has no others in its diary. -/
theorem Obeys.of_mem_diary {p : Service.Request → Prop} {sleeps : Prop} (h : job.Obeys p sleeps)
    {exchange : Exchange Service} (mem : .asked exchange ∈ job.diary answer elapse s) :
    p exchange.request := by
  induction job generalizing s with
  | done value => cases mem
  | stop why => cases mem
  | sleep length next ih =>
      rcases List.mem_cons.1 mem with asked | mem
      · cases asked
      · exact ih _ (h.2 _) mem
  | ask request next ih =>
      rcases List.mem_cons.1 mem with asked | mem
      · cases asked
        exact h.1
      · exact ih _ (h.2 _) mem

/-- A sequence ends with a value if both of its parts do, and its diary is made of theirs. -/
theorem run_bind_of_ok {f : α → Job Service β} {result : β}
    (h : ((job.bind f).run answer elapse s).1 = .ok result) :
    ∃ value, (job.run answer elapse s).1 = .ok value ∧
      (job.bind f).run answer elapse s = (f value).run answer elapse (job.run answer elapse s).2 ∧
      (job.bind f).diary answer elapse s = job.diary answer elapse s ++
        (f value).diary answer elapse (job.run answer elapse s).2 := by
  rw [bind_eq_andThen, run_andThen] at h
  rw [bind_eq_andThen, run_andThen, diary_andThen]
  cases ended : (job.run answer elapse s).1 with
  | error why =>
      rw [ended] at h
      cases h
  | ok value => exact ⟨value, rfl, rfl, rfl⟩

end Job

namespace Lease

open Simulation

/-- Leases can be given back, each entry was there before, and there is none of a key whose lease
was granted. -/
structure Cleared (world : World) (diary : Diary Service) (after : World) : Prop where
  release : after.leaseFaults.release = false
  old : ∀ entry ∈ after.leases.entries, entry ∈ world.leases.entries
  gone : ∀ key ttl token, .obtained key ttl (.ok (some token)) ∈ diary →
    ∀ entry ∈ after.leases.entries, entry.key ≠ key

theorem Cleared.trans {world between after : World} {diary diary' : Diary Service}
    (h : Cleared world diary between) (h' : Cleared between diary' after) :
    Cleared world (diary ++ diary') after where
  release := h'.release
  old entry mem := h.old entry (h'.old entry mem)
  gone key ttl token granted entry mem := by
    rcases List.mem_append.1 granted with granted | granted
    · exact h.gone key ttl token granted entry (h'.old entry mem)
    · exact h'.gone key ttl token granted entry mem

/-- Where leases can be given back, nothing remains of those that a run was granted. -/
def ReturnsAll (job : Job Service α) : Prop :=
  ∀ world : World, world.leaseFaults.release = false → ∀ value,
    (job.run World.answer World.elapse world).1 = .ok value →
      Cleared world (job.diary World.answer World.elapse world)
        (job.run World.answer World.elapse world).2

theorem ReturnsAll.bind {job : Job Service α} {f : α → Job Service β} (h : ReturnsAll job)
    (hf : ∀ value, ReturnsAll (f value)) : ReturnsAll (job.bind f) := by
  intro world works result ended
  obtain ⟨value, first, run, diary⟩ := Job.run_bind_of_ok ended
  have between := h world works value first
  rw [run] at ended
  rw [run, diary]
  exact between.trans (hf value _ between.release result ended)

/-- A job that leaves leases alone runs beside a store that does not change. -/
theorem run_of_leaseFree {job : Job Service α} (free : job.LeaseFree) (world : World) :
    (job.run World.answer World.elapse world).2.leaseFaults = world.leaseFaults ∧
      (job.run World.answer World.elapse world).2.leases = world.leases := by
  induction job generalizing world with
  | done value => exact ⟨rfl, rfl⟩
  | stop why => exact ⟨rfl, rfl⟩
  | sleep length next ih => exact ih _ (free.2 _) (world.elapse length)
  | ask request next ih =>
      have frame := World.frame_answer request world
      have same : (world.answer request).2.leases = world.leases := by
        refine (frame.leases ?_ ?_).1
        · rintro key ttl rfl
          cases free.1
        · rintro key token rfl
          cases free.1
      obtain ⟨faults, leases⟩ :=
        ih _ (free.2 (.ok (world.answer request).1)) (world.answer request).2
      exact ⟨faults.trans frame.leaseFaults, leases.trans same⟩

theorem returnsAll_of_leaseFree {job : Job Service α} (free : job.LeaseFree) : ReturnsAll job := by
  intro world works value _
  obtain ⟨faults, leases⟩ := run_of_leaseFree free world
  refine ⟨faults ▸ works, fun entry mem => leases ▸ mem, fun key ttl token granted => ?_⟩
  cases free.of_mem_diary granted

/-- Work whose lease was granted gives it back, and then all leases are gone that did not count
any more when it was granted. -/
theorem run_protect_of_granted {key : String} {ttl now : Duration} {token : Token} {store : Store}
    {work : Job Service α} (free : work.LeaseFree) {world : World} {value : α}
    (granted : (store.obtain now key ttl token).1 = true)
    (ended : ((Guard.protect ⟨key, token⟩ work).run World.answer World.elapse world).1 = .ok value)
    (works : world.leaseFaults.release = false)
    (leases : world.leases = (store.obtain now key ttl token).2) :
    let after := ((Guard.protect ⟨key, token⟩ work).run World.answer World.elapse world).2
    after.leaseFaults.release = false ∧ after.leases = store.evict now := by
  have begun : Job.LeaseFree ((Service.log (obtainedEvent ⟨key, token⟩)).bind fun _ => work) :=
    Job.Obeys.bind (Service.obeys_ask rfl) fun _ => free
  obtain ⟨faults, same⟩ := run_of_leaseFree begun world
  simp only [Guard.protect, Job.bind_eq, Job.onStop_bind_eq_andThen, Job.run_andThen] at ended ⊢
  generalize ((Service.log (obtainedEvent ⟨key, token⟩)).bind fun _ => work).run
    World.answer World.elapse world = outcome at ended faults same ⊢
  obtain ⟨why | value', between⟩ := outcome
  · obtain ⟨_, -, run, -⟩ := Job.run_bind_of_ok ended
    rw [run] at ended
    cases ended
  · have returned : between.releaseLease key token =
        (.ok true, { between with leases := store.evict now }) := by
      have given := Store.release_obtain granted between.now
      rw [World.releaseLease, faults, works, if_neg Bool.false_ne_true, same, leases, given]
    simp only [Guard.release, Service.ask, Job.request, Job.bind_eq, Job.ask_bind, Job.done_bind,
      Job.run_ask, World.answer, returned]
    exact ⟨faults ▸ works, rfl⟩

/-- **The store after work under a lease** has no entry that is new, and none of the key if the
lease was granted. -/
theorem leases_run_holding {key : String} {ttl : Duration} {work : Job Service α}
    (free : work.LeaseFree) {world : World} (works : world.leaseFaults.release = false)
    {result : Except Error (Option α)}
    (ended : ((holding key ttl work).toJob.run World.answer World.elapse world).1 = .ok result) :
    let after := ((holding key ttl work).toJob.run World.answer World.elapse world).2
    after.leaseFaults.release = false ∧
      (∀ entry ∈ after.leases.entries, entry ∈ world.leases.entries) ∧
      ∀ token, (world.obtainLease key ttl).1 = .ok (some token) →
        ∀ entry ∈ after.leases.entries, entry.key ≠ key := by
  rw [toJob_holding_eq_ask] at ended ⊢
  simp only [Service.ask, Job.request, Job.ask_bind, Job.done_bind, Job.run_ask, World.answer]
    at ended ⊢
  by_cases unreachable : world.leaseFaults.obtain = true
  · have refused : world.obtainLease key ttl = (.error World.unreachable, world) := by
      rw [World.obtainLease, if_pos unreachable]
    rw [refused]
    refine ⟨works, fun _ mem => mem, fun token granted => ?_⟩
    cases granted
  set token : Token := ⟨world.tokensDrawn⟩ with drawn
  have obtained : world.obtainLease key ttl =
      (.ok (if (world.leases.obtain world.now key ttl token).1 then some token else none),
        { world with
          tokensDrawn := world.tokensDrawn + 1
          leases := (world.leases.obtain world.now key ttl token).2 }) := by
    rw [World.obtainLease, if_neg unreachable]
    rfl
  rw [obtained] at ended ⊢
  cases granted : (world.leases.obtain world.now key ttl token).1 with
  | false =>
      refine ⟨works, fun entry mem => ?_, fun token given => ?_⟩
      · have evicted := Store.obtain_of_held granted
        exact (Store.mem_evict.1 (evicted ▸ mem)).1
      · cases given
  | true =>
      simp only [granted, if_true] at ended ⊢
      obtain ⟨value, guarded, run, -⟩ := Job.run_bind_of_ok ended
      obtain ⟨release, leases⟩ := run_protect_of_granted free granted guarded works rfl
      rw [run]
      refine ⟨release, fun entry mem => ?_, fun _ _ entry mem same => ?_⟩
      · exact (Store.mem_evict.1 (leases ▸ mem)).1
      · -- An entry of the key that still counted would have prevented the grant.
        obtain ⟨old, live⟩ := Store.mem_evict.1 (leases ▸ mem)
        rw [Store.obtain_eq_true_iff.1 granted entry old same] at live
        cases live

/-- **Nothing remains of a lease under which work was done.** -/
theorem returnsAll_holding (key : String) (ttl : Duration) {work : Job Service α}
    (free : work.LeaseFree) : ReturnsAll (holding key ttl work).toJob := by
  intro world works result ended
  obtain ⟨release, old, gone⟩ := leases_run_holding free works ended
  refine ⟨release, old, fun key' ttl' token granted => ?_⟩
  obtain ⟨next, asks, -, others⟩ := obtainsOnce_holding key ttl free
  rw [asks] at granted
  rcases List.mem_cons.1 granted with first | later
  · obtain ⟨request, answered⟩ := Exchange.mk.inj (Doing.asked.inj first)
    obtain ⟨rfl, rfl⟩ := Service.Request.obtainLease.inj request
    exact gone token (eq_of_heq answered).symm
  · cases (others _).of_mem_diary later

/-- What returns all of its leases is passed on to sequences. -/
theorem composes_returnsAll : Task.Composes fun _ task => ReturnsAll task.toJob where
  pure value := returnsAll_of_leaseFree (Task.obeys_pure value)
  bind h hf := ReturnsAll.bind h fun result => match result with
    | .ok value => hf value
    | .error error => returnsAll_of_leaseFree (Task.obeys_throw error)
  log _ := returnsAll_of_leaseFree (Task.obeys_liftM (Service.obeys_ask rfl))
  count _ _ := returnsAll_of_leaseFree (Task.obeys_liftM (Service.obeys_ask rfl))

/-- Where the store can be asked, a lease is refused exactly if somebody has it. -/
theorem obtainLease_eq_none_iff {world : World} (reachable : world.leaseFaults.obtain = false)
    (key : String) (ttl : Duration) :
    (world.obtainLease key ttl).1 = .ok none ↔
      (world.leases.holder world.now key).1.isSome = true := by
  have refused : (world.obtainLease key ttl).1 = .ok none ↔
      (world.leases.obtain world.now key ttl ⟨world.tokensDrawn⟩).1 = false := by
    rw [World.obtainLease, reachable, if_neg Bool.false_ne_true]
    show Except.ok (if (world.leases.obtain world.now key ttl ⟨world.tokensDrawn⟩).1
      then _ else _) = _ ↔ _
    cases (world.leases.obtain world.now key ttl ⟨world.tokensDrawn⟩).1 <;> simp
  rw [refused, Store.holder, Option.isSome_map, Option.isSome_iff_ne_none, ne_eq,
    Store.find?_eq_none_iff, ← Bool.not_eq_true, Store.obtain_eq_true_iff, not_iff_not]
  simp only [Store.mem_evictKey]
  constructor
  · rintro lapsed entry ⟨mem, live⟩ same
    rw [lapsed entry mem same] at live
    cases live same
  · intro none entry mem same
    by_contra live
    exact none entry ⟨mem, fun _ => Bool.not_eq_false _ ▸ live⟩ same

end Lease

namespace Coordinator

/-- A drop returns its lease. -/
theorem returnsAll_drop (coordinator : Coordinator) (index : Index) :
    Lease.ReturnsAll (coordinator.drop index).toJob :=
  drop_of_composes Lease.composes_returnsAll
    (fun error => Lease.returnsAll_of_leaseFree (Task.obeys_throw error))
    (Lease.returnsAll_holding _ _ (Ddl.Retrier.obeys_run (bookkeeping_leaseFree _) _ _ _))

theorem returnsAll_dropAll (coordinator : Coordinator) (indexes : List Index) :
    Lease.ReturnsAll (coordinator.dropAll indexes).toJob := by
  induction indexes with
  | nil => exact Lease.composes_returnsAll.pure _
  | cons index rest ih =>
      refine Lease.composes_returnsAll.bind (coordinator.returnsAll_drop index) fun what => ?_
      exact Lease.composes_returnsAll.bind ih fun report =>
        Lease.composes_returnsAll.pure _

end Coordinator

end Upkeep
