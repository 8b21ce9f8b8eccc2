import Upkeep.Ddl.Retry
import Upkeep.Proofs.Job.Rule

/-!
# What a retried statement does

A retried statement in surroundings that know nothing of logs and counters: one rule
for an attempt, and one for the loop over the attempts of a schedule.  Whoever wants
to know something about retried statements chooses the surroundings and an invariant
of the loop.

## Main Definitions

* `Surroundings.Overlooks` — logs, the count of retries and interruptions do not matter.
* `Bookkeeping` — the requests that every retried statement may make.

## Main Statements

* `Retrier.keeps_attempt` — the three statements of an attempt, one after the other.
* `Retrier.keeps_run` — the loop, by an invariant of what is left of the schedule.
* `Retrier.run_of_composes` — a property of the parts of a retried statement.
* `Retrier.obeys_run`, `Retrier.settles_run` — the requests of a retried statement, and its end.
-/

namespace Upkeep

variable {σ : Type} {S : Surroundings Service σ} {rule : σ → Service.Request → Prop}
  {failed : Error → σ → Prop} {stopped : Interruption → σ → Prop} {s : σ}

/-- Logs and the count of retries are allowed, no counter affects the state, nor do logs,
and nothing is demanded of a job that is stopped. -/
structure Surroundings.Overlooks (S : Surroundings Service σ) (rule : σ → Service.Request → Prop)
    (stopped : Interruption → σ → Prop) : Prop where
  rule_log : ∀ s event, rule s (.log event)
  after_log : ∀ s event answer, S.after s (.log event) answer = s
  rule_retry : ∀ s account, rule s (.count account .lockRetries 1)
  after_count : ∀ s account meter n answer, S.after s (.count account meter n) answer = s
  stops : S.interrupts → ∀ why s, stopped why s

namespace Surroundings.Overlooks

theorem keeps_log (h : S.Overlooks rule stopped) {event : Event} {ok : Unit → σ → Prop}
    (hok : ok () s) : (Service.log event).Keeps S rule ok stopped s := by
  refine Service.keeps_log.2
    ⟨h.rule_log s event, fun answer _ => ?_, fun hi why => h.stops hi why s⟩
  rw [h.after_log]
  exact hok

theorem keeps_count (h : S.Overlooks rule stopped) {account : Account} {meter : Meter}
    (hrule : rule s (.count account meter 1)) {ok : Unit → σ → Prop} (hok : ok () s) :
    (Service.count account meter).Keeps S rule ok stopped s := by
  refine Service.keeps_count.2
    ⟨hrule, fun answer _ => ?_, fun hi why => h.stops hi why s⟩
  rw [h.after_count]
  exact hok

end Surroundings.Overlooks

namespace Ddl.Retrier

variable {retrier : Retrier} {statement : String}

/-- What an attempt comes to whose statement had the given result. -/
def Verdict (ok : Option Sql.Failure → σ → Prop) (failed : Error → σ → Prop) :
    Except Sql.Failure Unit → σ → Prop
  | .ok () => ok none
  | .error failure =>
      if failure.isLockTimeout then ok (some failure) else failed (.statement failure)

theorem verdict_error {ok : Option Sql.Failure → σ → Prop} {failure : Sql.Failure}
    (hlock : failure.isLockTimeout = true → ok (some failure) s)
    (hother : failure.isLockTimeout = false → failed (.statement failure) s) :
    Verdict ok failed (.error failure) s := by
  simp only [Verdict]
  split
  · next h => exact hlock h
  · next h => exact hother (Bool.not_eq_true _ ▸ h)

private theorem keeps_verdict (quiet : S.Overlooks rule stopped) {number total : Nat}
    {entry : Attempt} {ok : Option Sql.Failure → σ → Prop} (result : Except Sql.Failure Unit) :
    Verdict ok failed result s → Task.Keeps S rule ok failed stopped
      (match result with
        | .ok () => pure none
        | .error failure =>
            if failure.isLockTimeout then do
              Service.count retrier.account .lockRetries
              Service.log (lockTimeoutEvent number total entry failure statement)
              return some failure
            else throw (.statement failure)) s := by
  intro h
  match result with
  | .ok () => exact h
  | .error failure =>
      simp only [Verdict] at h
      by_cases hl : failure.isLockTimeout = true
      · simp only [hl, if_true] at h ⊢
        simp only [Task.keeps_bind, Task.keeps_liftM, Task.keeps_pure]
        exact quiet.keeps_count (quiet.rule_retry _ _) (quiet.keeps_log h)
      · simp only [hl, if_false, Bool.false_eq_true] at h ⊢
        exact Task.keeps_throw.2 h

/-- **One attempt** is up to three statements: the one that sets the timeout, the
statement itself if that succeeded, and in any case then the one that undoes the
timeout. -/
theorem keeps_attempt (quiet : S.Overlooks rule stopped) {number total : Nat} {entry : Attempt}
    {ok : Option Sql.Failure → σ → Prop}
    (h : (retrier.execute (Sql.Statement.setLockTimeout entry.lockTimeout.millis).text).Keeps
      S rule
      (fun set s => match set with
        | .error failure => failed (.statement failure) s
        | .ok () =>
            (retrier.execute statement).Keeps S rule
              (fun result s =>
                (retrier.execute Sql.Statement.resetLockTimeout.text).Keeps S rule
                  (fun _ s => Verdict ok failed result s) stopped s)
              stopped s)
      stopped s) :
    (retrier.attempt number total entry statement).Keeps S rule ok failed stopped s := by
  simp only [Retrier.attempt, Task.keeps_bind, Task.keeps_liftM]
  refine h.mono (fun _ _ hr => hr) (fun set s₁ hset => ?_) fun _ _ hs => hs
  cases set with
  | error failure =>
      simp only [Task.keeps_bind, Task.keeps_throw]
      exact hset
  | ok done =>
      simp only [Task.keeps_bind, Task.keeps_liftM]
      refine quiet.keeps_log (hset.mono (fun _ _ hr => hr) (fun result s₂ hresult => ?_)
        fun _ _ hs => hs)
      refine hresult.mono (fun _ _ hr => hr) (fun reset s₃ hverdict => ?_) fun _ _ hs => hs
      -- What becomes of the undoing makes a difference to the log alone.
      cases reset with
      | ok done => exact keeps_verdict quiet result hverdict
      | error failure =>
          simp only [Task.keeps_bind, Task.keeps_liftM]
          exact quiet.keeps_log (keeps_verdict quiet result hverdict)

/-- **The loop over a schedule**, by an invariant of the attempts that are left: each
attempt finishes, or is the last one, or goes on to the next after a sleep. -/
theorem keeps_tryAll {inv : List Attempt → σ → Prop} {ok : Except Sql.Failure Nat → σ → Prop}
    {total : Nat}
    (step : ∀ number entry rest s, inv (entry :: rest) s →
      (retrier.attempt number total entry statement).Keeps S rule
        (fun result s => match result with
          | none => ok (.ok number) s
          | some failure =>
              if rest = [] then ok (.error failure) s
              else (Service.sleep entry.sleep).Keeps S rule (fun _ s => inv rest s) stopped s)
        failed stopped s)
    (number : Nat) (entry : Attempt) (rest : List Attempt) {s : σ} (start : inv (entry :: rest) s) :
    (retrier.tryAll total statement number entry rest).Keeps S rule ok failed stopped s := by
  induction rest generalizing number entry s with
  | nil =>
      simp only [tryAll, Task.keeps_bind]
      refine (step number entry [] s start).weaken fun result s hs => ?_
      cases result with
      | none => exact hs
      | some failure => exact hs
  | cons next rest ih =>
      simp only [tryAll, Task.keeps_bind]
      refine (step number entry (next :: rest) s start).weaken fun result s hs => ?_
      cases result with
      | none => exact hs
      | some failure =>
          simp only [Task.keeps_bind, Task.keeps_liftM]
          exact Job.Keeps.mono hs (fun _ _ hr => hr)
            (fun _ s hinv => ih (number + 1) next hinv) fun _ _ hs => hs

/-- How the loop over a schedule ends. -/
def Ending (finished : Nat → σ → Prop) (exhausted : Sql.Failure → σ → Prop) :
    Except Sql.Failure Nat → σ → Prop
  | .ok number => finished number
  | .error failure => exhausted failure

/-- **A retried statement**, by an invariant of the attempts that are left: it
succeeds on some attempt, or all of them run into a lock timeout. -/
theorem keeps_run (quiet : S.Overlooks rule stopped) {timing : Timing} {raise : Bool}
    {ok : Outcome → σ → Prop} (inv : List Attempt → σ → Prop) (finished : Nat → σ → Prop)
    (exhausted : Sql.Failure → σ → Prop) (start : inv timing.entries s)
    (step : ∀ number entry rest s, inv (entry :: rest) s →
      (retrier.attempt number timing.attempts entry statement).Keeps S rule
        (fun result s => match result with
          | none => finished number s
          | some failure =>
              if rest = [] then exhausted failure s
              else (Service.sleep entry.sleep).Keeps S rule (fun _ s => inv rest s) stopped s)
        failed stopped s)
    (completes : ∀ number s, finished number s → ok (.completed number) s)
    (gives_up : ∀ failure s, exhausted failure s →
      if raise then failed (.retriesExhausted timing.attempts failure) s
      else ok (.exhausted timing.attempts) s) :
    (retrier.run statement timing raise).Keeps S rule ok failed stopped s := by
  have loop : (retrier.tryAll timing.attempts statement 1 timing.first timing.rest).Keeps S rule
      (Ending finished exhausted) failed stopped s :=
    keeps_tryAll step 1 timing.first timing.rest start
  simp only [run, Task.keeps_bind]
  refine loop.weaken fun result s hs => ?_
  cases result with
  | ok number => exact completes number s hs
  | error failure =>
      have hgive := gives_up failure s hs
      by_cases hr : raise = true
      · simp only [hr, if_true] at hgive ⊢
        exact Task.keeps_throw.2 hgive
      · simp only [hr, if_false, Bool.false_eq_true] at hgive ⊢
        simp only [Task.keeps_bind, Task.keeps_liftM, Task.keeps_pure]
        exact quiet.keeps_log hgive

end Ddl.Retrier

/-! ### The requests of a retried statement -/

/-- Statements of a session, logs and counters are allowed. -/
structure Bookkeeping (session : Session) (p : Service.Request → Prop) : Prop where
  execute : ∀ sql, p (.execute session sql)
  count : ∀ account meter n, p (.count account meter n)
  log : ∀ event, p (.log event)

namespace Ddl.Retrier

variable {retrier : Retrier}

section Parts

variable {P : (α : Type) → Task α → Prop} (hP : Task.Composes P)
  (hthrow : ∀ {α : Type} (error : Error), P α (throw error))
  (hexecute : ∀ sql, P _ (liftM (retrier.execute sql)))

include hP hthrow hexecute

private theorem attempt_of_composes (number total : Nat) (entry : Attempt) (statement : String) :
    P _ (retrier.attempt number total entry statement) := by
  have verdict : ∀ result : Except Sql.Failure Unit, P (Option Sql.Failure)
      (match result with
        | .ok () => pure none
        | .error failure =>
            if failure.isLockTimeout then do
              Service.count retrier.account .lockRetries
              Service.log (lockTimeoutEvent number total entry failure statement)
              return some failure
            else throw (.statement failure)) := by
    intro result
    match result with
    | .ok () => exact hP.pure _
    | .error failure =>
        simp only []
        split
        · exact hP.bind (hP.count _ _) fun _ => hP.bind (hP.log _) fun _ => hP.pure _
        · exact hthrow _
  refine hP.bind (hexecute _) fun set => ?_
  match set with
  | .error failure => exact hthrow (.statement failure)
  | .ok () =>
      refine hP.bind (hP.log _) fun _ => hP.bind (hexecute _) fun result => ?_
      refine hP.bind (hexecute _) fun reset => ?_
      match reset with
      | .ok () => exact verdict result
      | .error failure => exact hP.bind (hP.log _) fun _ => verdict result

/-- **A retried statement** has what each of its statements, its sleeps and its failures have. -/
theorem run_of_composes (hsleep : ∀ length, P Unit (liftM (Service.sleep length)))
    (statement : String) (timing : Timing) (raise : Bool) :
    P _ (retrier.run statement timing raise) := by
  have loop : ∀ total number entry rest,
      P _ (retrier.tryAll total statement number entry rest) := by
    intro total number entry rest
    induction rest generalizing number entry with
    | nil =>
        refine hP.bind (attempt_of_composes hP hthrow hexecute _ _ _ _) fun result => ?_
        split <;> exact hP.pure _
    | cons next rest ih =>
        refine hP.bind (attempt_of_composes hP hthrow hexecute _ _ _ _) fun result => ?_
        split
        · exact hP.pure _
        · exact hP.bind (hsleep _) fun _ => ih _ _
  refine hP.bind (loop _ _ _ _) fun result => ?_
  split
  · exact hP.pure _
  · split
    · exact hthrow _
    · exact hP.bind (hP.log _) fun _ => hP.pure _

end Parts

variable {p : Service.Request → Prop} (h : Bookkeeping retrier.session p)

include h

/-- A retried statement makes no other requests. -/
theorem obeys_run (statement : String) (timing : Timing) (raise : Bool) :
    (retrier.run statement timing raise).Obeys p True :=
  run_of_composes (Task.composes_obeys h.log fun _ _ => h.count _ _ _) Task.obeys_throw
    (fun sql => Task.obeys_liftM (Service.obeys_ask (h.execute sql)))
    (fun length => Task.obeys_liftM (Service.obeys_sleep length)) statement timing raise

/-- A retried statement comes to an end. -/
theorem settles_run (statement : String) (timing : Timing) (raise : Bool) :
    (retrier.run statement timing raise).Settles p :=
  run_of_composes (Task.composes_settles h.log fun _ _ => h.count _ _ _) Task.settles_throw
    (fun sql => Task.settles_liftM (Service.settles_ask (h.execute sql)))
    (fun length => Task.settles_liftM (Service.settles_sleep length)) statement timing raise

end Ddl.Retrier

end Upkeep
