import Upkeep.Proofs.Job.Transcript
import Upkeep.Proofs.Lease.Rule
import Upkeep.Reindex.Coordinator

/-!
# The course of an attempt

What an attempt to rebuild an index asks of whom, in which order, and how it ends, whatever
it is answered.  There are four courses: the lease store fails, another worker has the lease,
the action cannot be created, or the attempt is seen through.

## Main Definitions

* `openedAction`, `closedAction` — the action of an attempt at its start and after its end.
* `Replies` — what an attempt is answered that is seen through.
* `Replies.closed`, `Replies.verdict` — its action after the end, and its result.
* `Course` — the transcripts of attempts with their results.

## Main Statements

* `keeps_perform_recording` — what an attempt adds to a transcript.
* `course_of_perform` — the course of an attempt in any world.

## Design Notes

The courses are complete: whoever is not in one of them was not asked.  The entries in the
log belong to the courses, as they are all that is ever seen of a notification that did not
get through or of a size that could not be read.
-/

namespace Upkeep

namespace Coordinator

/-- An entry in the log. -/
def logged (event : Event) : Exchange Service := ⟨.log event, ()⟩

/-- One of something is counted. -/
def counted (account : Account) (meter : Meter) : Exchange Service := ⟨.count account meter 1, ()⟩

/-- An entry in the log if there is an error. -/
def loggedIfFailed {α : Type} (event : Error → Event) : Except Error α → Transcript Service
  | .ok _ => []
  | .error error => [logged (event error)]

/-- The lease is given back. -/
def returned (key : String) (token : Lease.Token) (released : Except Error Bool) :
    Transcript Service :=
  ⟨.releaseLease key token, released⟩ ::
    match released with
    | .ok true => []
    | .ok false => [logged (Lease.expiredEvent key)]
    | .error error => [logged (Lease.releaseFailedEvent key error)]

/-- The action at the start of an attempt: it is running and has not ended, nothing has failed, and
all that is known of the index is from before. -/
def openedAction (index : Index) (id : Uuid) (started : UInt64) : Action where
  id := id
  database := index.database
  index := index.identifier
  state := .running
  started := started
  ended := none
  sizeBefore := index.size
  sizeAfter := none
  bloatBefore := index.bloat
  error := none

/-- The action after an attempt: it has ended, and it has failed with the error of the rebuild
exactly if the rebuild has failed. -/
def closedAction (index : Index) (id : Uuid) (started : UInt64) (rebuilt : Except Error Unit)
    (size : Except Error UInt64) (ended : UInt64) : Action where
  id := id
  database := index.database
  index := index.identifier
  state := match rebuilt with
    | .ok () => .finished
    | .error _ => .failed
  started := started
  ended := some ended
  sizeBefore := index.size
  sizeAfter := size.toOption
  bloatBefore := index.bloat
  error := match rebuilt with
    | .ok () => none
    | .error error => some error.message

theorem start_eq_openedAction (index : Index) (id : Uuid) (started : UInt64) :
    Action.start id index started = openedAction index id started := rfl

/-- What an attempt is answered that is seen through. -/
structure Replies where
  started : UInt64
  id : Uuid
  /-- Whether the start was announced. -/
  told : Except Error Unit
  length? : Option Duration
  rebuilt : Except Error Unit
  size : Except Error UInt64
  ended : UInt64
  updated : Except Error Unit
  /-- Whether the end was announced. -/
  toldEnd : Except Error Unit

variable (coordinator : Coordinator) (index : Index)

/-- A notification, with an entry in the log if it did not get through. -/
def notified (exchange : Worker → Exchange Service) (failure : Transcript Service)
    (entry : Event) : Transcript Service :=
  match coordinator.notifier with
  | .outside worker => exchange worker :: failure
  | .log => [logged entry]
  | .nobody => []

/-- The start of an attempt is announced. -/
def announced (action : Action) (told : Except Error Unit) : Transcript Service :=
  coordinator.notified (fun worker => ⟨.notifyStart worker action, told⟩)
    (loggedIfFailed (startNotFailedEvent action) told) (Notifier.startEvent action)

/-- The end of an attempt is announced. -/
def reported (action : Action) (told : Except Error Unit) : Transcript Service :=
  coordinator.notified (fun worker => ⟨.notifyEnd worker action, told⟩)
    (loggedIfFailed (endNotFailedEvent action) told) (Notifier.endEvent action)

namespace Replies

variable (replies : Replies)

/-- The action at the start of the attempt. -/
def opened : Action := openedAction index replies.id replies.started

/-- The action after the attempt. -/
def closed : Action :=
  closedAction index replies.id replies.started replies.rebuilt replies.size replies.ended

/-- The result of the attempt: a failed rebuild hides a record that could not be kept. -/
def verdict : Except Error Action :=
  match replies.rebuilt, replies.updated with
  | .error error, _ => .error (.rebuildFailed index.identifier error)
  | .ok (), .error error => .error error
  | .ok (), .ok () => .ok (replies.closed index)

/-- The result is counted. -/
def concluded : Transcript Service :=
  match replies.rebuilt, replies.updated with
  | .error _, updated =>
      counted coordinator.account .reindexFailed ::
        loggedIfFailed (failureNotKeptEvent (replies.closed index)) updated
  | .ok (), .error _ => []
  | .ok (), .ok () => [counted coordinator.account .reindexFinished]

/-- From the creation of the action to its update: one announcement of the start, and one
rebuild. -/
def untilUpdate : Transcript Service :=
  [⟨.createAction (replies.opened index), .ok ()⟩,
      counted coordinator.account .reindexStarted] ++
    coordinator.announced (replies.opened index) replies.told ++
    [⟨.beginRebuild coordinator.worker index, replies.length?⟩,
      ⟨.endRebuild coordinator.worker index, replies.rebuilt⟩] ++
    loggedIfFailed (rebuildFailedEvent (replies.opened index) index) replies.rebuilt ++
    [⟨.readSize coordinator.worker index, replies.size⟩] ++
    loggedIfFailed (sizeUnknownEvent index) replies.size ++
    [⟨.readClock, replies.ended⟩, logged (replies.closed index).endedEvent]

/-- From the creation of the action on: after the rebuild, one update of the action, and one
announcement of the end. -/
def seenThrough : Transcript Service :=
  replies.untilUpdate coordinator index ++
    [⟨.updateAction (replies.closed index), replies.updated⟩] ++
    coordinator.reported (replies.closed index) replies.toldEnd ++
    replies.concluded coordinator index

end Replies

/-- The transcripts of attempts with their results. -/
inductive Course (coordinator : Coordinator) (index : Index) :
    Transcript Service → Except Error Performed → Prop
  /-- The lease store fails, and nothing else happens. -/
  | unavailable (error : Error) :
      Course coordinator index
        [⟨.obtainLease (coordinator.leaseKey index) coordinator.settings.lease, .error error⟩]
        (.error error)
  /-- Another worker has the lease, which is counted. -/
  | held :
      Course coordinator index
        [⟨.obtainLease (coordinator.leaseKey index) coordinator.settings.lease, .ok none⟩,
          logged (Lease.heldEvent (coordinator.leaseKey index)),
          counted coordinator.account .leaseSkipped,
          logged (skippedEvent index (coordinator.leaseKey index))]
        (.ok .skipped)
  /-- The action cannot be created, and nothing else is done under the lease. -/
  | unrecorded (token : Lease.Token) (started : UInt64) (id : Uuid) (error : Error)
      (released : Except Error Bool) :
      Course coordinator index
        ([⟨.obtainLease (coordinator.leaseKey index) coordinator.settings.lease,
              .ok (some token)⟩,
            logged (Lease.obtainedEvent ⟨coordinator.leaseKey index, token⟩),
            ⟨.readClock, started⟩, ⟨.drawId, id⟩,
            ⟨.createAction (openedAction index id started), .error error⟩] ++
          returned (coordinator.leaseKey index) token released)
        (.error error)
  /-- The attempt is seen through. -/
  | seenThrough (token : Lease.Token) (replies : Replies) (released : Except Error Bool) :
      Course coordinator index
        ([⟨.obtainLease (coordinator.leaseKey index) coordinator.settings.lease,
              .ok (some token)⟩,
            logged (Lease.obtainedEvent ⟨coordinator.leaseKey index, token⟩),
            ⟨.readClock, replies.started⟩, ⟨.drawId, replies.id⟩] ++
          replies.seenThrough coordinator index ++
          returned (coordinator.leaseKey index) token released)
        ((replies.verdict index).map .done)

/-! ### Parts of an attempt -/

/-- A rule on transcripts that allows everything in an attempt but for what concerns its
action; nothing is demanded of an attempt that is stopped. -/
structure Tolerates (coordinator : Coordinator) (index : Index) (interrupts : Prop)
    (rule : Transcript Service → Service.Request → Prop)
    (stopped : Interruption → Transcript Service → Prop) : Prop where
  stops : interrupts → ∀ why t, stopped why t
  log : ∀ t event, rule t (.log event)
  count : ∀ t meter, rule t (.count coordinator.account meter 1)
  readClock : ∀ t, rule t .readClock
  drawId : ∀ t, rule t .drawId
  notifyStart : ∀ t worker action, rule t (.notifyStart worker action)
  notifyEnd : ∀ t worker action, rule t (.notifyEnd worker action)
  beginRebuild : ∀ t, rule t (.beginRebuild coordinator.worker index)
  endRebuild : ∀ t, rule t (.endRebuild coordinator.worker index)
  readSize : ∀ t, rule t (.readSize coordinator.worker index)

section Parts

variable {coordinator : Coordinator} {index : Index} {action : Action} {interrupts : Prop}
  {rule : Transcript Service → Service.Request → Prop}
  {stopped : Interruption → Transcript Service → Prop} {t : Transcript Service}

namespace Tolerates

variable (h : Tolerates coordinator index interrupts rule stopped)

include h

theorem keeps_ask {r : Service.Request} {ok : Service.Answer r → Transcript Service → Prop}
    (hr : rule t r) (hok : ∀ answer : Service.Answer r, ok answer (t ++ [⟨r, answer⟩])) :
    (Service.ask r).Keeps (.recording Service interrupts) rule ok stopped t :=
  ⟨hr, fun answer _ => hok answer, fun hi why => h.stops hi why t⟩

theorem keeps_log {event : Event} {ok : Unit → Transcript Service → Prop}
    (hok : ok () (t ++ [logged event])) :
    (Service.log event).Keeps (.recording Service interrupts) rule ok stopped t :=
  h.keeps_ask (h.log t event) fun _ => hok

theorem keeps_count {meter : Meter} {ok : Unit → Transcript Service → Prop}
    (hok : ok () (t ++ [counted coordinator.account meter])) :
    (Service.count coordinator.account meter).Keeps (.recording Service interrupts) rule ok
      stopped t :=
  h.keeps_ask (h.count t meter) fun _ => hok

/-- What is written to the log only if there was an error. -/
private theorem keeps_ifFailed {event : Error → Event} {result : Except Error Unit}
    {ok : Unit → Transcript Service → Prop} :
    ok () (t ++ loggedIfFailed event result) →
      Job.Keeps (.recording Service interrupts) rule ok stopped (match result with
        | .error error => Service.log (event error)
        | _ => pure ()) t := by
  intro hok
  match result with
  | .ok () =>
      rw [loggedIfFailed, List.append_nil] at hok
      exact hok
  | .error error => exact h.keeps_log hok

/-- A notification, by the job that tells somebody outside. -/
private theorem keeps_notify {entry : Event} {failed : Error → Event}
    {tell : Worker → Job Service (Except Error Unit)}
    {exchange : Except Error Unit → Worker → Exchange Service}
    (htell : ∀ worker (ok : Except Error Unit → Transcript Service → Prop),
      (∀ told, ok told (t ++ [exchange told worker])) →
        (tell worker).Keeps (.recording Service interrupts) rule ok stopped t)
    {ok : Unit → Transcript Service → Prop}
    (hok : ∀ told, ok () (t ++ coordinator.notified (exchange told) (loggedIfFailed failed told)
      entry)) {task : Task Unit}
    (htask : task = match coordinator.notifier with
      | .outside worker => Service.attempt (tell worker)
      | .log => Service.log entry
      | .nobody => return ()) :
    Job.Keeps (.recording Service interrupts) rule ok stopped
      (do if let .error error ← task.toJob then Service.log (failed error)) t := by
  subst htask
  unfold notified at hok
  match hnotifier : coordinator.notifier with
  | .outside worker =>
      simp only [hnotifier] at hok
      refine Job.keeps_bind.2 (htell worker _ fun told => h.keeps_ifFailed ?_)
      rw [List.append_assoc]
      exact hok told
  | .log =>
      simp only [hnotifier] at hok
      exact Job.keeps_bind.2 (Job.keeps_bind.2 (h.keeps_log (hok (.ok ()))))
  | .nobody =>
      simp only [hnotifier, List.append_nil] at hok
      exact hok (.ok ())

theorem keeps_announce {ok : Unit → Transcript Service → Prop}
    (hok : ∀ told, ok () (t ++ coordinator.announced action told)) :
    (coordinator.announce action).Keeps (.recording Service interrupts) rule ok stopped t :=
  h.keeps_notify (fun worker _ => h.keeps_ask (h.notifyStart t worker action)) hok rfl

theorem keeps_report {ok : Unit → Transcript Service → Prop}
    (hok : ∀ told, ok () (t ++ coordinator.reported action told)) :
    (coordinator.report action).Keeps (.recording Service interrupts) rule ok stopped t :=
  h.keeps_notify (fun worker _ => h.keeps_ask (h.notifyEnd t worker action)) hok rfl

theorem keeps_rebuild {ok : Except Error Unit → Transcript Service → Prop}
    (hok : ∀ length? rebuilt, ok rebuilt
      (t ++ [⟨.beginRebuild coordinator.worker index, length?⟩,
        ⟨.endRebuild coordinator.worker index, rebuilt⟩])) :
    (coordinator.rebuild index).Keeps (.recording Service interrupts) rule ok stopped t := by
  have hend : ∀ length?, (Service.ask (.endRebuild coordinator.worker index)).Keeps
      (.recording Service interrupts) rule ok stopped
        (t ++ [⟨.beginRebuild coordinator.worker index, length?⟩]) := by
    intro length?
    refine h.keeps_ask (h.endRebuild _) fun rebuilt => ?_
    rw [List.append_assoc]
    exact hok length? rebuilt
  refine Job.keeps_bind.2 (h.keeps_ask (h.beginRebuild t) fun length? => ?_)
  match length? with
  | none => exact hend none
  | some length =>
      exact Job.keeps_bind.2 (Service.keeps_sleep.2
        ⟨hend (some length), fun hi why => h.stops hi why _⟩)

theorem keeps_judge {rebuilt : Except Error Unit} {ok : Action → Transcript Service → Prop}
    (hok : ok (match rebuilt with
        | .ok () => action
        | .error error => action.fail error.message)
      (t ++ loggedIfFailed (rebuildFailedEvent action index) rebuilt)) :
    (judge action index rebuilt).Keeps (.recording Service interrupts) rule ok stopped t := by
  match rebuilt with
  | .ok () =>
      rw [loggedIfFailed, List.append_nil] at hok
      exact hok
  | .error error => exact Job.keeps_bind.2 (h.keeps_log hok)

theorem keeps_sizeAfter? {ok : Option UInt64 → Transcript Service → Prop}
    (hok : ∀ size : Except Error UInt64, ok size.toOption
      (t ++ [⟨.readSize coordinator.worker index, size⟩] ++
        loggedIfFailed (sizeUnknownEvent index) size)) :
    (coordinator.sizeAfter? index).Keeps (.recording Service interrupts) rule ok stopped t := by
  refine Job.keeps_bind.2 (h.keeps_ask (h.readSize t) fun size => ?_)
  specialize hok size
  match size with
  | .ok bytes =>
      rw [loggedIfFailed, List.append_nil] at hok
      exact hok
  | .error error => exact Job.keeps_bind.2 (h.keeps_log hok)

/-- The end of an attempt that is seen through. -/
theorem keeps_conclude (replies : Replies) {ok : Except Error Action → Transcript Service → Prop}
    (hok : ok (replies.verdict index) (t ++ replies.concluded coordinator index)) :
    (coordinator.conclude index (replies.closed index) replies.rebuilt replies.updated).Keeps
      (.recording Service interrupts) rule (fun action => ok (.ok action))
      (fun error => ok (.error error)) stopped t := by
  unfold conclude
  unfold Replies.verdict Replies.concluded at hok
  match hrebuilt : replies.rebuilt, hupdated : replies.updated with
  | .error error, .error storeError =>
      simp only [hrebuilt, hupdated, loggedIfFailed] at hok
      refine Task.keeps_bind.2 (Task.keeps_liftM.2 (h.keeps_count ?_))
      refine Task.keeps_bind.2 (Task.keeps_liftM.2 (h.keeps_log ?_))
      rw [List.append_assoc]
      exact hok
  | .error error, .ok () =>
      simp only [hrebuilt, hupdated, loggedIfFailed] at hok
      exact Task.keeps_bind.2 (Task.keeps_liftM.2 (h.keeps_count hok))
  | .ok (), .error storeError =>
      simp only [hrebuilt, hupdated, List.append_nil] at hok
      exact hok
  | .ok (), .ok () =>
      simp only [hrebuilt, hupdated] at hok
      exact Task.keeps_bind.2 (Task.keeps_liftM.2 (h.keeps_count hok))

omit h in
private theorem finish_eq_closedAction (index : Index) (id : Uuid) (started : UInt64)
    (rebuilt : Except Error Unit) (size : Except Error UInt64) (ended : UInt64) :
    (match rebuilt with
      | .ok () => openedAction index id started
      | .error error => (openedAction index id started).fail error.message).finish ended
        size.toOption = closedAction index id started rebuilt size ended := by
  match rebuilt with
  | .ok () => rfl
  | .error error => rfl

/-- **What is done under the lease**, by what is known when the action is created, when it is
updated, and at the end. -/
theorem keeps_performLocked (ok : Except Error Action → Transcript Service → Prop)
    (hcreate : ∀ started id, rule (t ++ [⟨.readClock, started⟩, ⟨.drawId, id⟩])
      (.createAction (openedAction index id started)))
    (hunrecorded : ∀ started id error, ok (.error error)
      (t ++ [⟨.readClock, started⟩, ⟨.drawId, id⟩,
        ⟨.createAction (openedAction index id started), .error error⟩]))
    (hupdate : ∀ replies : Replies, rule
      (t ++ [⟨.readClock, replies.started⟩, ⟨.drawId, replies.id⟩] ++
        replies.untilUpdate coordinator index) (.updateAction (replies.closed index)))
    (hthrough : ∀ replies : Replies, ok (replies.verdict index)
      (t ++ [⟨.readClock, replies.started⟩, ⟨.drawId, replies.id⟩] ++
        replies.seenThrough coordinator index)) :
    (coordinator.performLocked index).Keeps (.recording Service interrupts) rule
      (fun action => ok (.ok action)) (fun error => ok (.error error)) stopped t := by
  refine Task.keeps_bind.2 (Task.keeps_liftM.2 (h.keeps_ask (h.readClock t) fun started => ?_))
  refine Task.keeps_bind.2 (Task.keeps_liftM.2 (h.keeps_ask (h.drawId _) fun id => ?_))
  rw [start_eq_openedAction]
  have hcreated := hcreate started id
  rw [List.append_cons] at hcreated
  refine Task.keeps_bind.2 (Task.keeps_attempt.2 (h.keeps_ask hcreated fun created => ?_))
  match created with
  | .error error =>
      simp only [List.append_assoc]
      exact hunrecorded started id error
  | .ok () =>
      refine Task.keeps_bind.2 (Task.keeps_liftM.2 (h.keeps_count ?_))
      refine Task.keeps_bind.2 (Task.keeps_liftM.2 (h.keeps_announce fun told => ?_))
      refine Task.keeps_bind.2 (Task.keeps_ofJob.2 (h.keeps_rebuild fun length? rebuilt => ?_))
      refine Task.keeps_bind.2 (Task.keeps_ofJob.2 (h.keeps_judge ?_))
      refine Task.keeps_bind.2 (Task.keeps_ofJob.2 (h.keeps_sizeAfter? fun size => ?_))
      refine Task.keeps_bind.2 (Task.keeps_liftM.2 (h.keeps_ask (h.readClock _) fun ended => ?_))
      rw [finish_eq_closedAction]
      refine Task.keeps_bind.2 (Task.keeps_liftM.2 (h.keeps_log ?_))
      refine Task.keeps_bind.2 (Task.keeps_ofJob.2 (h.keeps_ask ?_ fun updated => ?_))
      · have hrule := hupdate ⟨started, id, told, length?, rebuilt, size, ended, .ok (), .ok ()⟩
        simp only [Replies.untilUpdate, List.append_assoc] at hrule ⊢
        exact hrule
      refine Task.keeps_bind.2 (Task.keeps_liftM.2 (h.keeps_report fun toldEnd => ?_))
      have hend := hthrough
        ⟨started, id, told, length?, rebuilt, size, ended, updated, toldEnd⟩
      refine h.keeps_conclude
        ⟨started, id, told, length?, rebuilt, size, ended, updated, toldEnd⟩ ?_
      simp only [Replies.seenThrough, Replies.untilUpdate, List.append_assoc] at hend ⊢
      exact hend

end Tolerates

/-- A job that nobody interrupts may do anything. -/
private theorem tolerates_recording (coordinator : Coordinator) (index : Index) :
    Tolerates coordinator index False (fun _ _ => True) (fun _ _ => False) where
  stops := False.elim
  log _ _ := trivial
  count _ _ := trivial
  readClock _ := trivial
  drawId _ := trivial
  notifyStart _ _ _ := trivial
  notifyEnd _ _ _ := trivial
  beginRebuild _ := trivial
  endRebuild _ := trivial
  readSize _ := trivial

private theorem keeps_release_recording {key : String} {token : Lease.Token}
    {ok : Bool → Transcript Service → Prop}
    (h : ∀ (value : Bool) (released : Except Error Bool),
      ok value (t ++ returned key token released)) :
    (Lease.Guard.release ⟨key, token⟩).Keeps (.recording Service False) (fun _ _ => True) ok
      stopped t := by
  refine Lease.Guard.keeps_release_iff.2 (keeps_ask_recording fun released => ?_)
  match released with
  | .ok true => exact h true (.ok true)
  | .ok false =>
      refine keeps_ask_recording fun _ => ?_
      rw [List.append_assoc]
      exact h false (.ok false)
  | .error error =>
      refine keeps_ask_recording fun _ => ?_
      rw [List.append_assoc]
      exact h false (.error error)

/-- **What an attempt adds to a transcript** is one of its courses. -/
theorem keeps_perform_recording (coordinator : Coordinator) (index : Index) :
    (coordinator.perform index).Keeps (.recording Service False) (fun _ _ => True)
      (fun performed t => Course coordinator index t (.ok performed))
      (fun error t => Course coordinator index t (.error error)) (fun _ _ => False) [] := by
  have tolerates := tolerates_recording coordinator index
  refine Task.keeps_bind.2 (Lease.keeps_holding_iff.2 (keeps_ask_recording fun obtained => ?_))
  match obtained with
  | .error error => exact .unavailable error
  | .ok none =>
      refine tolerates.keeps_log ?_
      refine Task.keeps_bind.2 (Task.keeps_liftM.2 (tolerates.keeps_count ?_))
      refine Task.keeps_bind.2 (Task.keeps_liftM.2 (tolerates.keeps_log ?_))
      exact .held
  | .ok (some token) =>
      refine Lease.Guard.keeps_protect_iff.2 (keeps_ask_recording fun _ => ?_)
      -- The result is already known when the lease is given back, which never fails it.
      refine Job.Keeps.mono (tolerates.keeps_performLocked (fun result t => ∀ released,
          Course coordinator index (t ++ returned (coordinator.leaseKey index) token released)
            (result.map .done)) (fun _ _ => trivial) ?_ (fun _ => trivial) ?_)
        (fun _ _ hr => hr) ?_ fun _ _ => False.elim
      · exact fun started id error released => .unrecorded token started id error released
      · intro replies released
        have hcourse : Course coordinator index _ _ := .seenThrough token replies released
        simp only [List.cons_append, List.nil_append] at hcourse ⊢
        exact hcourse
      · intro result t h
        refine keeps_release_recording fun _ released => ?_
        match result with
        | .ok action => exact Task.keeps_map.2 (h released)
        | .error error => exact Task.keeps_map.2 (h released)

end Parts

/-- **An attempt runs its course**, whatever the world is like that answers it. -/
theorem course_of_perform {σ : Type} (coordinator : Coordinator) (index : Index)
    (answer : (r : Service.Request) → σ → Service.Answer r × σ) (elapse : Duration → σ → σ)
    (s : σ) :
    ∃ result, ((coordinator.perform index).toJob.run answer elapse s).1 = .ok result ∧
      Course coordinator index ((coordinator.perform index).toJob.transcript answer elapse s)
        result := by
  rcases Job.ends_of_keeps answer elapse (keeps_perform_recording coordinator index) s with
    ⟨result, hrun, hcourse⟩ | ⟨why, -, hstopped⟩
  · match result with
    | .ok performed => exact ⟨.ok performed, hrun, hcourse⟩
    | .error error => exact ⟨.error error, hrun, hcourse⟩
  · exact hstopped.elim

end Coordinator

end Upkeep
