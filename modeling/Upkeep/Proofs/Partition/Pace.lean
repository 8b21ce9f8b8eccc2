import Upkeep.Proofs.Lease.Work

/-!
# The pace of a sync

How long a sync may sleep while it has its lease.  It sleeps only between two attempts of a
statement, and only if the first one ran into a lock timeout.  The schedule's sleeps are
short on average until its sixteenth attempt, after which it sleeps for longer than the
lease lasts.

## Main Definitions

* `pace` — what a sync has done so far, as far as the time of its lease is concerned.
* `Timely` — a lease is asked for once, and statements are executed within its time.
* `OnPace`, `Paced` — the invariant, and tasks that preserve it.

## Main Statements

* `paced_run` — a retried statement.
* `Manager.keeps_sync_timely` — a sync by the default settings.

## Design Notes

*The bound is on the average.*  No single sleep of the first fifteen is bounded by it, so it
is not what each attempt preserves; within a statement the sleeps of the attempts so far are
counted as they are.

*Timeouts are counted generously*: those of the statements that set and undo the session's
timeout count, although they lead to no sleep.
-/

namespace Upkeep.Partition

open Lease

variable {α : Type}

/-- What a sync has done so far. -/
structure Pace where
  /-- How long it has slept. -/
  slept : Duration := 0
  /-- How many of its statements ran into a lock timeout. -/
  timeouts : Nat := 0
  /-- How long it had slept when it asked for its lease. -/
  asked? : Option Duration := none

/-- What a sync has done after one more request or sleep.  Nothing is known about answers, and
every wait may be interrupted. -/
def pace : Surroundings Service Pace where
  replies _ _ _ := True
  after s r answer :=
    match r, answer with
    | .obtainLease _ _, _ => { s with asked? := some s.slept }
    | .execute _ _, .error failure =>
        { s with timeouts := s.timeouts + failure.isLockTimeout.toNat }
    | _, _ => s
  slept s length := { s with slept := s.slept + length }
  interrupts := True

theorem isOpen_pace : pace.IsOpen := ⟨fun _ _ _ => trivial, trivial⟩

/-- A lease is asked for once, and for a minute.  Statements are executed after that, and
before the minute is over unless too many ran into lock timeouts. -/
def Timely (s : Pace) : Service.Request → Prop
  | .obtainLease _ ttl => s.asked? = none ∧ ttl = .ofSecs 60
  | .execute _ _ =>
      ∃ asked, s.asked? = some asked ∧ (s.timeouts ≤ 15 → s.slept < asked + .ofSecs 60)
  | _ => True

/-- A lease that was asked for is not asked for again. -/
theorem asked?_after_eq {s : Pace} {r : Service.Request} {answer : Service.Answer r}
    {asked : Duration} (hr : Timely s r) (h : s.asked? = some asked) :
    (pace.after s r answer).asked? = some asked := by
  cases r with
  | obtainLease key ttl =>
      rw [hr.1] at h
      cases h
  | execute session sql => cases answer <;> exact h
  | _ => exact h

/-! ### The schedule -/

/-- The nanoseconds that an attempt costs on average, at most. -/
def patience : Nat := 1175000000

/-- The nanoseconds of the sleeps after some attempts. -/
def sleeps : List Ddl.Attempt → Nat
  | [] => 0
  | entry :: rest => entry.sleep.nanos + sleeps rest

theorem sleeps_concat (attempts : List Ddl.Attempt) (entry : Ddl.Attempt) :
    sleeps (attempts ++ [entry]) = sleeps attempts + entry.sleep.nanos := by
  induction attempts with
  | nil => exact Nat.add_comm _ _
  | cons first rest ih => rw [List.cons_append, sleeps, ih, sleeps, Nat.add_assoc]

theorem sleeps_take_le {k : Nat} (hk : k ≤ 15) :
    sleeps (Ddl.Timing.partitionDdl.entries.take k) ≤ patience * k := by
  have hall : ∀ k < 16, sleeps (Ddl.Timing.partitionDdl.entries.take k) ≤ patience * k := by decide
  exact hall k (Nat.lt_succ_of_le hk)

/-! ### The invariant -/

/-- At most so many nanoseconds were slept since the lease was asked for, unless there were too
many lock timeouts. -/
structure Spends (asked : Duration) (nanos : Nat) (s : Pace) : Prop where
  asked_eq : s.asked? = some asked
  slept_le : s.timeouts ≤ 15 → s.slept.nanos ≤ asked.nanos + nanos

/-- Each lock timeout has cost no more than the average. -/
def OnPace (asked : Duration) (s : Pace) : Prop := Spends asked (patience * s.timeouts) s

variable {asked : Duration} {nanos : Nat} {s : Pace}

theorem OnPace.timely (h : OnPace asked s) (session : Session) (sql : String) :
    Timely s (.execute session sql) := by
  refine ⟨asked, h.asked_eq, fun hfew => ?_⟩
  have hslept := h.slept_le hfew
  simp only [patience] at hslept
  simp only [Duration.lt_def, Duration.nanos_add, Duration.ofSecs]
  omega

/-- More lock timeouts do not hurt. -/
theorem OnPace.afterTimeouts (h : OnPace asked s) (n : Nat) :
    OnPace asked { s with timeouts := s.timeouts + n } := by
  refine ⟨h.asked_eq, fun hfew => ?_⟩
  have hslept := h.slept_le (by simp only at hfew; omega)
  simp only [patience] at hslept ⊢
  omega

/-- The task preserves the invariant, and what it does is timely. -/
def Paced (asked : Duration) (task : Task α) : Prop :=
  ∀ s, OnPace asked s → task.Keeps pace Timely (fun _ s => OnPace asked s)
    (fun _ s => OnPace asked s) (fun _ _ => True) s

theorem overlooks_pace : pace.Overlooks Timely fun _ _ => True :=
  ⟨fun _ _ => trivial, fun _ _ _ => rfl, fun _ _ => trivial, fun _ _ _ _ _ => rfl,
    fun _ _ _ => trivial⟩

theorem composes_paced : Task.Composes fun _ task => Paced asked task where
  pure _ _ hs := Task.keeps_pure.2 hs
  bind h hf s hs := Task.keeps_bind.2 ((h s hs).weaken fun value s hs => hf value s hs)
  log _ _ hs := Task.keeps_liftM.2 (overlooks_pace.keeps_log hs)
  count _ _ _ hs := Task.keeps_liftM.2 (overlooks_pace.keeps_count trivial hs)

/-- Tasks that only decide or report take no time. -/
theorem paced_of_isCalm {task : Task α} (h : task.IsCalm) : Paced asked task := by
  intro s hs
  refine (Job.Obeys.keeps h ?_ ?_ (fun hsleeps => hsleeps.elim) hs).mono (fun _ _ hr => hr)
    (fun result s hs => ?_) fun _ _ _ => trivial
  · intro s r hs hcalm
    cases r with
    | obtainLease key ttl => cases hcalm
    | execute session sql => cases hcalm
    | _ => exact trivial
  · intro s r answer hs hcalm
    cases r with
    | obtainLease key ttl => cases hcalm
    | execute session sql => cases hcalm
    | _ => exact hs
  · match result with
    | .ok value => exact hs
    | .error error => exact hs

/-! ### A retried statement -/

private theorem keeps_statement {retrier : Ddl.Retrier} {sql : String}
    {ok : Except Sql.Failure Unit → Pace → Prop} (h : OnPace asked s) (hok : ok (.ok ()) s)
    (hfail : ∀ failure : Sql.Failure,
      ok (.error failure) { s with timeouts := s.timeouts + failure.isLockTimeout.toNat }) :
    (retrier.execute sql).Keeps pace Timely ok (fun _ _ => True) s := by
  refine Service.keeps_ask.2 ⟨h.timely _ _, fun answer _ => ?_, fun _ _ => trivial⟩
  match answer with
  | .ok () => exact hok
  | .error failure => exact hfail failure

/-- So many lock timeouts had been met when the statement began, and then one for each attempt
so far.  These have slept as long as they say. -/
def Trying (asked : Duration) (timeouts : Nat) (left : List Ddl.Attempt) (s : Pace) : Prop :=
  ∃ tried, Ddl.Timing.partitionDdl.entries = tried ++ left ∧
    timeouts + tried.length ≤ s.timeouts ∧ Spends asked (patience * timeouts + sleeps tried) s

namespace Trying

variable {timeouts : Nat} {left rest : List Ddl.Attempt} {entry : Ddl.Attempt}

theorem onPace (h : Trying asked timeouts left s) : OnPace asked s := by
  obtain ⟨tried, hentries, htimeouts, hspends⟩ := h
  refine ⟨hspends.asked_eq, fun hfew => ?_⟩
  have hsleeps := sleeps_take_le (k := tried.length) (by omega)
  rw [hentries, List.take_left] at hsleeps
  have hslept := hspends.slept_le hfew
  simp only [patience] at hslept hsleeps ⊢
  omega

/-- A lock timeout, and the sleep after it. -/
theorem slept (h : Trying asked timeouts (entry :: rest) s) {n : Nat} (hn : 1 ≤ n) :
    Trying asked timeouts rest (pace.slept { s with timeouts := s.timeouts + n } entry.sleep) := by
  obtain ⟨tried, hentries, htimeouts, hspends⟩ := h
  refine ⟨tried ++ [entry], ?_, ?_, hspends.asked_eq, fun hfew => ?_⟩
  · rw [hentries, List.append_assoc, List.singleton_append]
  · simp only [pace, List.length_append, List.length_singleton]
    omega
  · have hslept := hspends.slept_le (by simp only [pace] at hfew; omega)
    simp only [pace, sleeps_concat, Duration.nanos_add] at hslept ⊢
    omega

/-- What comes after a lock timeout: the end of the statement, or a sleep. -/
theorem afterTimeout (h : Trying asked timeouts (entry :: rest) s) {n : Nat} (hn : 1 ≤ n) :
    if rest = [] then OnPace asked { s with timeouts := s.timeouts + n }
    else (Service.sleep entry.sleep).Keeps pace Timely (fun _ s => Trying asked timeouts rest s)
      (fun _ _ => True) { s with timeouts := s.timeouts + n } := by
  split
  · exact h.onPace.afterTimeouts n
  · exact Service.keeps_sleep.2 ⟨h.slept hn, fun _ _ => trivial⟩

end Trying

/-- **A retried statement** keeps the pace. -/
theorem paced_run (retrier : Ddl.Retrier) (sql : String) (raise : Bool) :
    Paced asked (retrier.run sql .partitionDdl raise) := by
  intro start hstart
  refine Ddl.Retrier.keeps_run overlooks_pace (Trying asked start.timeouts)
    (fun _ s => OnPace asked s) (fun _ s => OnPace asked s) ⟨[], rfl, Nat.le_refl _, hstart⟩ ?_
    (fun _ _ hs => hs) ?_
  · rintro number entry rest s htrying
    have hpace := htrying.onPace
    refine Ddl.Retrier.keeps_attempt overlooks_pace
      (keeps_statement hpace ?_ fun failure => hpace.afterTimeouts _)
    refine keeps_statement hpace ?_ fun failure => ?_
    · exact keeps_statement hpace hpace fun failure => hpace.afterTimeouts _
    · -- What becomes of the undoing makes no difference but for the count.
      have hfirst : failure.isLockTimeout = true → 1 ≤ failure.isLockTimeout.toNat := by
        rintro hlock
        rw [hlock]
        exact Nat.le_refl 1
      have hafter := hpace.afterTimeouts failure.isLockTimeout.toNat
      refine keeps_statement hafter ?_ fun reset => ?_
      · exact Ddl.Retrier.verdict_error (fun hlock => htrying.afterTimeout (hfirst hlock))
          fun _ => hafter
      · refine Ddl.Retrier.verdict_error (fun hlock => ?_) fun _ => hafter.afterTimeouts _
        have hmore := Nat.le_add_right_of_le (k := reset.isLockTimeout.toNat) (hfirst hlock)
        exact Nat.add_assoc .. ▸ htrying.afterTimeout hmore
  · intro failure s hs
    split
    · exact hs
    · exact hs

/-! ### A sync -/

/-- The decisions of a list keep the pace. -/
theorem SlidingList.each_paced {list : SlidingList} (htiming : list.timing = .partitionDdl) :
    list.strategy.Each fun _ task => Paced asked task :=
  (list.isCalm_reads.imp paced_of_isCalm).each composes_paced
    fun sql => htiming ▸ paced_run _ sql _

theorem Manager.paced_syncLocked {manager : Manager}
    (htiming : manager.settings.timing = .partitionDdl)
    (h : manager.strategy.Each fun _ task => Paced asked task) : Paced asked manager.syncLocked :=
  syncLocked_of_each composes_paced (fun sql => htiming ▸ paced_run _ sql _) h

/-- Giving the lease back is always in time. -/
private theorem keeps_anyway {job : Job Service α}
    (h : job.Obeys (fun r : Service.Request => ∀ s, Timely s r) True) (s : Pace) :
    job.Keeps pace Timely (fun _ _ => True) (fun _ _ => True) s :=
  h.keeps (fun s _ _ hr => hr s) (fun _ _ _ _ _ => trivial) (fun _ _ _ _ => trivial) trivial

private theorem keeps_abandon (guard : Guard) (s : Pace) :
    guard.abandon.Keeps pace Timely (fun _ _ => True) (fun _ _ => True) s :=
  keeps_anyway (guard.obeys_abandon (fun _ => trivial) (fun _ => trivial) fun _ _ => trivial) s

/-- Work under a lease is timely if it keeps the pace from the moment of the lease on. -/
private theorem keeps_holding_timely {key : String} {work : Job Service α}
    (hasked : s.asked? = none)
    (hwork : ∀ s', OnPace s.slept s' →
      work.Keeps pace Timely (fun _ _ => True) (fun _ _ => True) s') :
    (holding key (.ofSecs 60) work).Keeps pace Timely (fun _ _ => True) (fun _ _ => True)
      (fun _ _ => True) s := by
  refine keeps_holding_iff.2 (Service.keeps_ask.2
    ⟨⟨hasked, rfl⟩, fun answer _ => ?_, fun _ _ => trivial⟩)
  have hstart : OnPace s.slept { s with asked? := some s.slept } :=
    ⟨rfl, fun _ => Nat.le_add_right _ _⟩
  match answer with
  | .error error => exact trivial
  | .ok none => exact overlooks_pace.keeps_log trivial
  | .ok (some token) =>
      refine Guard.keeps_protect_iff.2 (Service.keeps_log.2
        ⟨trivial, fun _ _ => ?_, fun _ _ => keeps_abandon _ _⟩)
      refine (hwork _ hstart).mono (fun _ _ hr => hr) (fun value s' _ => ?_) fun _ s' _ => ?_
      · exact keeps_anyway (Guard.obeys_release _ (fun _ => trivial) fun _ _ => trivial) s'
      · exact keeps_abandon _ s'

/-- **A sync by the default settings** asks for its lease once, and executes its statements
within the minute of the lease unless too many run into lock timeouts. -/
theorem Manager.keeps_sync_timely {manager : Manager} (hlease : manager.settings.lease = .ofSecs 60)
    (htiming : manager.settings.timing = .partitionDdl)
    (h : ∀ asked, manager.strategy.Each fun _ task => Paced asked task)
    (hasked : s.asked? = none) :
    manager.sync.Keeps pace Timely (fun _ _ => True) (fun _ _ => True) (fun _ _ => True) s := by
  unfold sync
  rw [hlease]
  refine Task.keeps_bind.2 ((keeps_holding_timely hasked fun s' hs' => ?_).weaken ?_)
  · refine Job.Keeps.mono (paced_syncLocked htiming (h _) s' hs') (fun _ _ hr => hr)
      (fun _ _ _ => trivial) fun _ _ _ => trivial
  · intro result? s' _
    match result? with
    | some (.ok report) => exact Task.keeps_map.2 (Task.keeps_attempt.2 trivial)
    | some (.error error) => exact Task.keeps_map.2 (Task.keeps_attempt.2 trivial)
    | none =>
        refine Task.keeps_bind.2 (Task.keeps_liftM.2 (overlooks_pace.keeps_count trivial ?_))
        exact Task.keeps_bind.2 (Task.keeps_liftM.2 (overlooks_pace.keeps_log trivial))

end Upkeep.Partition
