import Upkeep.Proofs.Ddl.Retry
import Upkeep.Proofs.Lease.Outstanding
import Upkeep.Proofs.Lease.Rule
import Upkeep.Proofs.Partition.Parts
import Upkeep.Reindex.Coordinator

/-!
# Work under leases

What is done under a lease never touches leases itself, and all of it is done while
the guard is in hand.  So syncs, rebuilds and drops are guarded jobs, and so is any
other work under a lease.

## Main Definitions

* `Request.isLease`, `Request.isWork` — requests that obtain or give back, and those
  that are neither that nor reports.
* `LeaseFree`, `IsCalm` — tasks and jobs that leave leases alone, and those that decide
  or report but do nothing else.
* `under` — all work is done under one key.

## Main Statements

* `keeps_holding` — work under a lease begins and ends with empty hands.
* `Manager.keeps_sync`, `Coordinator.keeps_perform`, `Coordinator.keeps_drop` — the
  library's own cases.

## Design Notes

Which requests come before the lease and after it is the same in all three cases:
those that obtain and give back, and the reports on that.  `isWork` is what is left.
-/

namespace Upkeep

variable {α β : Type}

/-- Whether the request obtains or gives back a lease. -/
def Service.Request.isLease : Service.Request → Bool
  | .obtainLease _ _ | .releaseLease _ _ => true
  | _ => false

/-- Whether the request is part of the work that a lease is for. -/
def Service.Request.isWork : Service.Request → Bool
  | .obtainLease _ _ | .releaseLease _ _ | .canDelegate | .count _ _ _ | .log _ => false
  | _ => true

/-- Whether the request changes neither the leases nor the catalog. -/
def Service.Request.isCalm : Service.Request → Bool
  | .obtainLease _ _ | .releaseLease _ _ | .execute _ _ => false
  | _ => true

theorem Service.Request.isLease_of_isCalm {r : Service.Request} (h : r.isCalm = true) :
    r.isLease = false := by
  cases r with
  | obtainLease key ttl => cases h
  | releaseLease key token => cases h
  | _ => rfl

theorem Service.Request.ne_execute_of_isCalm {r : Service.Request} (h : r.isCalm = true)
    (session : Session) (sql : String) : r ≠ .execute session sql := by
  rintro rfl
  cases h

/-- The job leaves leases alone. -/
abbrev Job.LeaseFree (job : Job Service α) : Prop :=
  job.Obeys (fun r : Service.Request => r.isLease = false) True

/-- The task leaves leases alone. -/
abbrev Task.LeaseFree (task : Task α) : Prop := task.Obeys (fun r => r.isLease = false) True

/-- The job neither sleeps nor changes the leases or the catalog. -/
abbrev Job.IsCalm (job : Job Service α) : Prop :=
  job.Obeys (fun r : Service.Request => r.isCalm = true) False

/-- The task neither sleeps nor changes the leases or the catalog. -/
abbrev Task.IsCalm (task : Task α) : Prop := task.Obeys (fun r => r.isCalm = true) False

theorem Task.leaseFree_of_isCalm {task : Task α} (h : task.IsCalm) : task.LeaseFree :=
  Task.Obeys.mono h (fun _ => Service.Request.isLease_of_isCalm) False.elim

/-! ### Partition upkeep -/

theorem bookkeeping_leaseFree (session : Session) :
    Bookkeeping session fun r => r.isLease = false :=
  ⟨fun _ => rfl, fun _ _ _ => rfl, fun _ => rfl⟩

namespace Partition

/-- A sliding list only reads to decide. -/
theorem SlidingList.isCalm_reads (list : SlidingList) : list.Reads fun _ task => task.IsCalm where
  throw := Task.obeys_throw
  partitions := Task.obeys_attempt (Service.obeys_ask rfl)
  default := Task.obeys_attempt (Service.obeys_ask rfl)
  isFull _ := Task.obeys_liftM (Service.obeys_ask rfl)
  isRetired _ := Task.obeys_liftM (Service.obeys_ask rfl)

/-- A strategy whose decisions leave leases alone. -/
abbrev Strategy.LeaseFree (strategy : Strategy) : Prop :=
  strategy.Each fun _ task => task.LeaseFree

theorem composes_leaseFree : Task.Composes fun _ task => task.LeaseFree :=
  Task.composes_obeys (fun _ => rfl) fun _ _ => rfl

theorem SlidingList.leaseFree_strategy (list : SlidingList) : list.strategy.LeaseFree :=
  (list.isCalm_reads.imp Task.leaseFree_of_isCalm).each composes_leaseFree
    fun _ => Ddl.Retrier.obeys_run (bookkeeping_leaseFree _) _ _ _

theorem Strategy.leaseFree_planned (table : String) : (Strategy.planned table).LeaseFree :=
  ⟨Service.obeys_ask rfl, Service.obeys_ask rfl, Service.obeys_ask rfl, Task.obeys_pure _⟩

theorem Manager.leaseFree_syncLocked {manager : Manager} (h : manager.strategy.LeaseFree) :
    manager.syncLocked.LeaseFree :=
  syncLocked_of_each composes_leaseFree
    (fun _ => Ddl.Retrier.obeys_run (bookkeeping_leaseFree _) _ _ _) h

end Partition

/-! ### Index upkeep -/

namespace Coordinator

/-- Everything that is part of an attempt under its lease is allowed. -/
structure Allows (coordinator : Coordinator) (index : Index) (p : Service.Request → Prop) :
    Prop where
  log : ∀ event, p (.log event)
  count : ∀ account meter n, p (.count account meter n)
  readClock : p .readClock
  drawId : p .drawId
  createAction : ∀ id now, p (.createAction (.start id index now))
  updateAction : ∀ action, p (.updateAction action)
  notifyStart : ∀ worker action, p (.notifyStart worker action)
  notifyEnd : ∀ worker action, p (.notifyEnd worker action)
  beginRebuild : p (.beginRebuild coordinator.worker index)
  endRebuild : p (.endRebuild coordinator.worker index)
  readSize : p (.readSize coordinator.worker index)

namespace Allows

variable {coordinator : Coordinator} {index : Index} {p : Service.Request → Prop}
  (h : coordinator.Allows index p)

include h

private theorem obeys_log (event : Event) :
    (liftM (Service.log event) : Task Unit).Obeys p True :=
  Task.obeys_liftM (Service.obeys_ask (h.log event))

private theorem obeys_count (account : Account) (meter : Meter) :
    (liftM (Service.count account meter) : Task Unit).Obeys p True :=
  Task.obeys_liftM (Service.obeys_ask (h.count account meter 1))

private theorem obeys_rebuild : (coordinator.rebuild index).Obeys p True := by
  refine Job.Obeys.bind (Service.obeys_ask h.beginRebuild) fun length? => ?_
  split
  · exact Job.Obeys.bind (Service.obeys_sleep _) fun _ => Service.obeys_ask h.endRebuild
  · exact Service.obeys_ask h.endRebuild

private theorem obeys_sizeAfter? : (coordinator.sizeAfter? index).Obeys p True := by
  refine Job.Obeys.bind (Service.obeys_ask h.readSize) fun size => ?_
  split
  · exact trivial
  · exact Job.Obeys.bind (Service.obeys_ask (h.log _)) fun _ => trivial

private theorem obeys_announce (action : Action) : (coordinator.announce action).Obeys p True := by
  have hnotify : (coordinator.notifier.notifyStart action).Obeys p True := by
    unfold Notifier.notifyStart
    split
    · exact Service.obeys_ask (h.notifyStart _ action)
    · exact h.obeys_log _
    · exact Task.obeys_pure _
  refine Job.Obeys.bind hnotify fun told => ?_
  split
  · exact Service.obeys_ask (h.log _)
  · exact trivial

private theorem obeys_report (action : Action) : (coordinator.report action).Obeys p True := by
  have hnotify : (coordinator.notifier.notifyEnd action).Obeys p True := by
    unfold Notifier.notifyEnd
    split
    · exact Service.obeys_ask (h.notifyEnd _ action)
    · exact h.obeys_log _
    · exact Task.obeys_pure _
  refine Job.Obeys.bind hnotify fun told => ?_
  split
  · exact Service.obeys_ask (h.log _)
  · exact trivial

private theorem obeys_judge (action : Action) (rebuilt : Except Error Unit) :
    (judge action index rebuilt).Obeys p True := by
  unfold judge
  split
  · exact trivial
  · exact Job.Obeys.bind (Service.obeys_ask (h.log _)) fun _ => trivial

private theorem obeys_conclude (action : Action) (rebuilt updated : Except Error Unit) :
    (coordinator.conclude index action rebuilt updated).Obeys p True := by
  unfold conclude
  split
  · exact .bind (h.obeys_count _ _) fun _ => .bind (h.obeys_log _) fun _ => Task.obeys_throw _
  · exact .bind (h.obeys_count _ _) fun _ => Task.obeys_throw _
  · exact Task.obeys_throw _
  · exact .bind (h.obeys_count _ _) fun _ => Task.obeys_pure _

theorem obeys_performLocked : (coordinator.performLocked index).Obeys p True := by
  refine .bind (Task.obeys_liftM (Service.obeys_ask h.readClock)) fun started => ?_
  refine .bind (Task.obeys_liftM (Service.obeys_ask h.drawId)) fun id => ?_
  refine .bind (Task.obeys_attempt (Service.obeys_ask (h.createAction id started))) fun _ => ?_
  refine .bind (h.obeys_count _ _) fun _ => ?_
  refine .bind (Task.obeys_liftM (h.obeys_announce _)) fun _ => ?_
  refine .bind (Task.obeys_ofJob h.obeys_rebuild) fun rebuilt => ?_
  refine .bind (Task.obeys_ofJob (h.obeys_judge _ rebuilt)) fun action => ?_
  refine .bind (Task.obeys_ofJob h.obeys_sizeAfter?) fun size? => ?_
  refine .bind (Task.obeys_liftM (Service.obeys_ask h.readClock)) fun ended => ?_
  refine .bind (h.obeys_log _) fun _ => ?_
  refine .bind (Task.obeys_ofJob (Service.obeys_ask (h.updateAction _))) fun updated => ?_
  refine .bind (Task.obeys_liftM (h.obeys_report _)) fun _ => ?_
  exact h.obeys_conclude _ rebuilt updated

end Allows

theorem leaseFree_performLocked (coordinator : Coordinator) (index : Index) :
    (coordinator.performLocked index).LeaseFree :=
  Allows.obeys_performLocked
    ⟨fun _ => rfl, fun _ _ _ => rfl, rfl, rfl, fun _ _ => rfl, fun _ => rfl, fun _ _ => rfl,
      fun _ _ => rfl, rfl, rfl, rfl⟩

end Coordinator

/-! ### Giving back -/

namespace Lease.Guard

variable {p : Service.Request → Prop} {sleeps : Prop} (guard : Guard)

theorem obeys_release (hreturn : p (.releaseLease guard.key guard.token))
    (hlog : ∀ event, p (.log event)) : guard.release.Obeys p sleeps := by
  refine Job.Obeys.bind (Service.obeys_ask hreturn) fun answer => ?_
  match answer with
  | .ok true => exact trivial
  | .ok false => exact Job.Obeys.bind (Service.obeys_ask (hlog _)) fun _ => trivial
  | .error error => exact Job.Obeys.bind (Service.obeys_ask (hlog _)) fun _ => trivial

theorem obeys_abandon (hreturn : p (.releaseLease guard.key guard.token))
    (hdelegate : p .canDelegate) (hlog : ∀ event, p (.log event)) :
    guard.abandon.Obeys p sleeps := by
  refine Job.Obeys.bind (Service.obeys_ask hdelegate) fun delegates => ?_
  split
  · refine Job.Obeys.bind (Service.obeys_ask hreturn) fun answer => ?_
    match answer with
    | .ok released => exact trivial
    | .error error => exact Service.obeys_ask (hlog _)
  · exact Service.obeys_ask (hlog _)

end Lease.Guard

/-- Work under a lease makes no other requests than the work, those for the lease, and entries
in the log. -/
theorem Lease.obeys_holding {key : String} {ttl : Duration} {p : Service.Request → Prop}
    (hobtain : p (.obtainLease key ttl)) (hreturn : ∀ key token, p (.releaseLease key token))
    (hdelegate : p .canDelegate) (hlog : ∀ event, p (.log event)) {work : Job Service α}
    (hwork : work.Obeys p True) : (holding key ttl work).Obeys p True := by
  have hacquire : (acquire key ttl).Obeys p True :=
    .bind (Task.obeys_attempt (Service.obeys_ask hobtain)) fun _ => Task.obeys_pure _
  refine .bind hacquire fun guard? => ?_
  match guard? with
  | none => exact .bind (Task.obeys_liftM (Service.obeys_ask (hlog _))) fun _ => Task.obeys_pure _
  | some guard =>
      refine Task.Obeys.bind (Task.obeys_ofJob ?_) fun _ => Task.obeys_pure _
      refine Job.Obeys.bind (Job.Obeys.onStop ?_ ?_) fun _ => ?_
      · exact Job.Obeys.bind (Service.obeys_ask (hlog _)) fun _ => hwork
      · exact guard.obeys_abandon (hreturn _ _) hdelegate hlog
      · exact Job.Obeys.bind (guard.obeys_release (hreturn _ _) hlog) fun _ => trivial

/-- Work under a lease comes to an end if the work does. -/
theorem Lease.settles_holding {key : String} {ttl : Duration} {p : Service.Request → Prop}
    (hobtain : p (.obtainLease key ttl)) (hreturn : ∀ key token, p (.releaseLease key token))
    (hlog : ∀ event, p (.log event)) {work : Job Service α} (hwork : work.Settles p) :
    (holding key ttl work).Settles p := by
  have hacquire : (acquire key ttl).Settles p :=
    .bind (Task.settles_attempt (Service.settles_ask hobtain)) fun _ => Task.settles_pure _
  have hrelease : ∀ guard : Guard, guard.release.Settles p := by
    refine fun guard => .bind (Service.settles_ask (hreturn _ _)) fun released => ?_
    match released with
    | .ok true => exact trivial
    | .ok false => exact .bind (Service.settles_ask (hlog _)) fun _ => trivial
    | .error error => exact .bind (Service.settles_ask (hlog _)) fun _ => trivial
  refine .bind hacquire fun guard? => ?_
  match guard? with
  | none =>
      exact .bind (Task.settles_liftM (Service.settles_ask (hlog _))) fun _ => Task.settles_pure _
  | some guard =>
      refine Task.Settles.bind (Task.settles_ofJob ?_) fun _ => Task.settles_pure _
      refine Job.Settles.bind (Job.Settles.onStop ?_ _) fun _ =>
        .bind (hrelease guard) fun _ => trivial
      exact Job.Settles.bind (Service.settles_ask (hlog _)) fun _ => hwork

/-- An attempt makes no other requests. -/
theorem Coordinator.Allows.obeys_perform {coordinator : Coordinator} {index : Index}
    {p : Service.Request → Prop} (h : coordinator.Allows index p)
    (hobtain : ∀ key ttl, p (.obtainLease key ttl))
    (hreturn : ∀ key token, p (.releaseLease key token)) (hdelegate : p .canDelegate) :
    (coordinator.perform index).Obeys p True := by
  refine .bind (Lease.obeys_holding (hobtain _ _) hreturn hdelegate h.log h.obeys_performLocked)
    fun result => ?_
  match result with
  | some (.ok action) => exact trivial
  | some (.error error) => exact trivial
  | none =>
      exact .bind (h.obeys_count _ _) fun _ => .bind (h.obeys_log _) fun _ => Task.obeys_pure _

namespace Coordinator

/-- A drop has what the work under its lease and its failures have. -/
theorem drop_of_composes {P : (α : Type) → Task α → Prop} (hP : Task.Composes P)
    (hthrow : ∀ {α : Type} (error : Error), P α (throw error)) {coordinator : Coordinator}
    {index : Index}
    (hholding : P _ (Lease.holding (coordinator.leaseKey index) coordinator.settings.lease
      (coordinator.retrier.run index.dropStatement.text coordinator.settings.timing false).toJob)) :
    P _ (coordinator.drop index) := by
  have hreport : ∀ (meter : Meter) (event : Event) (result : Dropped), P Dropped (do
      Service.count coordinator.account meter
      Service.log event
      return result) := fun meter event result =>
    hP.bind (hP.count _ _) fun _ => hP.bind (hP.log _) fun _ => hP.pure _
  refine hP.bind hholding fun result => ?_
  match result with
  | none => exact hreport _ _ _
  | some (.error error) => exact hthrow error
  | some (.ok (.completed attempts)) => exact hreport _ _ _
  | some (.ok (.exhausted attempts)) => exact hreport _ _ _

section Drop

variable {coordinator : Coordinator} (index : Index) {p : Service.Request → Prop}
  (h : Bookkeeping coordinator.session p) (hobtain : ∀ key ttl, p (.obtainLease key ttl))
  (hreturn : ∀ key token, p (.releaseLease key token))

include h hobtain hreturn

/-- A drop makes no other requests. -/
theorem obeys_drop (hdelegate : p .canDelegate) : (coordinator.drop index).Obeys p True :=
  drop_of_composes (Task.composes_obeys h.log fun _ _ => h.count _ _ _) Task.obeys_throw
    (Lease.obeys_holding (hobtain _ _) hreturn hdelegate h.log (Ddl.Retrier.obeys_run h _ _ _))

/-- A drop comes to an end. -/
theorem settles_drop : (coordinator.drop index).Settles p :=
  drop_of_composes (Task.composes_settles h.log fun _ _ => h.count _ _ _) Task.settles_throw
    (Lease.settles_holding (hobtain _ _) hreturn h.log (Ddl.Retrier.settles_run h _ _ _))

end Drop

end Coordinator

/-! ### Guarded jobs -/

namespace Lease

/-- All work is done under the lease of one key. -/
def under (key : String) (r : Service.Request) : Option String :=
  if r.isWork then some key else none

variable {key : String}

/-- What is no work needs nothing in hand, if it does not give back a lease. -/
private theorem lawful_of_not_work {guards : List Guard} {r : Service.Request}
    (hr : ∀ key token, r ≠ .releaseLease key token) (hwork : r.isWork = false) :
    Lawful (under key) guards r := by
  refine ⟨fun key token heq => absurd heq (hr key token), fun key' hneeds => ?_⟩
  simp [under, hwork] at hneeds

private theorem lawful_of_mem {token : Token} {guards : List Guard} (h : ⟨key, token⟩ ∈ guards) :
    ∀ r : Service.Request, r.isLease = false → Lawful (under key) guards r := by
  intro r hfree
  refine ⟨fun key' token' heq => ?_, fun key' hneeds => ⟨⟨key, token⟩, h, ?_⟩⟩
  · subst heq
    cases hfree
  · simp only [under, Option.ite_none_right_eq_some, Option.some.injEq] at hneeds
    exact hneeds.2

/-- Work that leaves leases alone leaves alone what is in hand. -/
private theorem keeps_work {token : Token} {guards : List Guard} {work : Job Service α}
    (hwork : work.LeaseFree) (h : ⟨key, token⟩ ∈ guards) :
    work.Keeps hand (Lawful (under key)) (fun _ after => after = guards)
      (fun _ after => after = guards) guards := by
  refine Job.Obeys.keeps hwork ?_ ?_ (fun _ _ _ hs => hs) rfl
  · rintro s r rfl hfree
    exact lawful_of_mem h r hfree
  · rintro s r answer rfl hfree
    cases r with
    | obtainLease key ttl => cases hfree
    | releaseLease key token => cases hfree
    | _ => rfl

private theorem keeps_log {guards : List Guard} (event : Event) {ok : Unit → List Guard → Prop}
    {stopped : Interruption → List Guard → Prop} (hok : ok () guards)
    (hstopped : ∀ why, stopped why guards) :
    (Service.log event).Keeps hand (Lawful (under key)) ok stopped guards :=
  ⟨lawful_of_not_work nofun rfl, fun _ _ => hok, fun _ => hstopped⟩

/-- Whoever asks for a lease to be given back has it no longer. -/
private theorem keeps_releaseLease (token : Token) {ok : Except Error Bool → List Guard → Prop}
    {stopped : Interruption → List Guard → Prop} (hok : ∀ answer, ok answer [])
    (hstopped : ∀ why, stopped why [⟨key, token⟩]) :
    (Service.ask (.releaseLease key token)).Keeps hand (Lawful (under key)) ok stopped
      [⟨key, token⟩] := by
  refine ⟨⟨fun key' token' heq => ?_, fun key' hneeds => ?_⟩, fun answer _ => ?_, fun _ => hstopped⟩
  · obtain ⟨rfl, rfl⟩ := Service.Request.releaseLease.inj heq
    exact List.mem_singleton_self _
  · simp [under, Service.Request.isWork] at hneeds
  · have hempty : hand.after [⟨key, token⟩] (.releaseLease key token) answer = [] := by
      simp [hand]
    rw [hempty]
    exact hok answer

private theorem keeps_abandon (token : Token) :
    (Guard.abandon ⟨key, token⟩).Keeps hand (Lawful (under key)) (fun _ _ => True)
      (fun _ _ => True) [⟨key, token⟩] := by
  refine Job.keeps_bind.2 ⟨lawful_of_not_work nofun rfl, fun delegates _ => ?_, fun _ _ => trivial⟩
  match delegates with
  | true =>
      refine Job.keeps_bind.2 (keeps_releaseLease token (fun answer => ?_) fun _ => trivial)
      match answer with
      | .ok released => exact trivial
      | .error error => exact keeps_log _ trivial fun _ => trivial
  | false => exact keeps_log _ trivial fun _ => trivial

/-- Protected work ends with empty hands, unless it is stopped. -/
private theorem keeps_protect (token : Token) {work : Job Service α} (hwork : work.LeaseFree) :
    (Guard.protect ⟨key, token⟩ work).Keeps hand (Lawful (under key)) (fun _ after => after = [])
      (fun _ _ => True) [⟨key, token⟩] := by
  refine Guard.keeps_protect_iff.2 (keeps_log _ ?_ fun _ => keeps_abandon token)
  refine (keeps_work hwork (List.mem_singleton_self _)).mono (fun _ _ hr => hr) ?_ ?_
  · rintro value s rfl
    exact Guard.keeps_release_of_kept (keeps_releaseLease token (fun _ => rfl) fun _ => trivial)
      fun _ _ hs => keeps_log _ hs fun _ => trivial
  · rintro why s rfl
    exact keeps_abandon token

/-- **Work under a lease begins and ends with empty hands**, and all of it is done with
the guard in hand. -/
theorem keeps_holding (ttl : Duration) {work : Job Service α} (hwork : work.LeaseFree) :
    (holding key ttl work).Keeps hand (Lawful (under key)) (fun _ after => after = [])
      (fun _ after => after = []) (fun _ _ => True) [] := by
  refine keeps_holding_iff.2
    ⟨lawful_of_not_work nofun rfl, fun answer _ => ?_, fun _ _ => trivial⟩
  match answer with
  | .error error => exact rfl
  | .ok none => exact keeps_log _ rfl fun _ => trivial
  | .ok (some token) => exact keeps_protect token hwork

/-- What comes after the lease was given back. -/
private theorem keeps_report (account : Account) (meter : Meter) (event : Event)
    {task : Task α} {ok : α → List Guard → Prop} {failed : Error → List Guard → Prop}
    (h : task.Keeps hand (Lawful (under key)) ok failed (fun _ _ => True) []) :
    (do
      Service.count account meter
      Service.log event
      task : Task α).Keeps hand (Lawful (under key)) ok failed (fun _ _ => True) [] := by
  refine Task.keeps_bind.2 (Task.keeps_liftM.2
    ⟨lawful_of_not_work nofun rfl, fun _ _ => ?_, fun _ _ => trivial⟩)
  exact Task.keeps_bind.2 (Task.keeps_liftM.2 (keeps_log event h fun _ => trivial))

end Lease

open Lease

/-- A sync is guarded by the lease of its table. -/
theorem Partition.Manager.keeps_sync {manager : Manager} (h : manager.strategy.LeaseFree) :
    manager.sync.Keeps hand (Lawful (under manager.leaseKey)) (fun _ after => after = [])
      (fun _ after => after = []) (fun _ _ => True) [] := by
  refine Task.keeps_bind.2 ((keeps_holding _ (leaseFree_syncLocked h)).weaken ?_)
  rintro result s rfl
  match result with
  | some result =>
      refine Task.keeps_map.2 (Task.keeps_attempt.2 ?_)
      match result with
      | .ok report => exact rfl
      | .error error => exact rfl
  | none => exact keeps_report _ _ _ (Task.keeps_pure.2 rfl)

/-- A rebuild is guarded by the lease for work on its index. -/
theorem Coordinator.keeps_perform (coordinator : Coordinator) (index : Index) :
    (coordinator.perform index).Keeps hand (Lawful (under (coordinator.leaseKey index)))
      (fun _ after => after = []) (fun _ after => after = []) (fun _ _ => True) [] := by
  refine Task.keeps_bind.2
    ((keeps_holding _ (coordinator.leaseFree_performLocked index)).weaken ?_)
  rintro result s rfl
  match result with
  | some result =>
      refine Task.keeps_map.2 (Task.keeps_attempt.2 ?_)
      match result with
      | .ok action => exact rfl
      | .error error => exact rfl
  | none => exact keeps_report _ _ _ (Task.keeps_pure.2 rfl)

/-- A drop is guarded by the lease for work on its index. -/
theorem Coordinator.keeps_drop (coordinator : Coordinator) (index : Index) :
    (coordinator.drop index).Keeps hand (Lawful (under (coordinator.leaseKey index)))
      (fun _ after => after = []) (fun _ after => after = []) (fun _ _ => True) [] := by
  refine Task.keeps_bind.2 ((keeps_holding _ ?_).weaken ?_)
  · exact Ddl.Retrier.obeys_run (bookkeeping_leaseFree _) _ _ _
  rintro result s rfl
  match result with
  | none => exact keeps_report _ _ _ (Task.keeps_pure.2 rfl)
  | some (.error error) => exact rfl
  | some (.ok (.completed attempts)) => exact keeps_report _ _ _ (Task.keeps_pure.2 rfl)
  | some (.ok (.exhausted attempts)) => exact keeps_report _ _ _ (Task.keeps_pure.2 rfl)

/-- A task that begins and ends with empty hands is a guarded job. -/
theorem Lease.guarded_of_keeps {needs : Service.Request → Option String} {task : Task α}
    (h : task.Keeps hand (Lawful needs) (fun _ after => after = []) (fun _ after => after = [])
      (fun _ _ => True) []) : Guarded needs task.toJob :=
  Job.Keeps.mono h (fun _ _ hr => hr) (fun _ _ _ => trivial) fun _ _ _ => trivial

end Upkeep
