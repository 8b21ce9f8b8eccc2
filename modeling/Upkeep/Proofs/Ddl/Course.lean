import Upkeep.Ddl.Retry
import Upkeep.Proofs.Job.Diary
import Upkeep.Proofs.Simulation.Counts

/-!
# The course of a retried statement

What a retried statement does, in which order, and what becomes of it, whatever it is answered:
an attempt after another, as long as they run into their lock timeouts and the schedule has an
entry left.

## Main Definitions

* `Trial` — what an attempt was answered, and `Trial.verdict`, what it comes to.
* `Retrier.stepsOf` — what attempts execute and how long they sleep in between.
* `Retrier.diaryOf` — all that attempts do, with what they count and write to the log.
* `Retrier.Tries` — the attempts that a schedule allows for, with what becomes of them.

## Main Statements

* `Retrier.keeps_attempt_writing`, `Retrier.keeps_tryAll_writing` — one attempt, and the loop.
* `Retrier.diary_run` — what a retried statement does in any world.
* `Retrier.steps_diaryOf`, `Retrier.retries_diaryOf` — what of that is executed, and what is
  counted.
* `Retrier.tally_run` — nothing else is counted.

## Design Notes

Attempts are related to what becomes of them by an inductive predicate that follows the loop: the
loop ends with an attempt, or one more attempt comes first.
-/

namespace Upkeep

/-! ### Diaries of statements -/

/-- An entry in the log. -/
def Doing.logged (event : Event) : Doing Service := .asked ⟨.log event, ()⟩

/-- One of something is counted. -/
def Doing.counted (account : Account) (meter : Meter) : Doing Service :=
  .asked ⟨.count account meter 1, ()⟩

/-- Whether a statement is executed, or time passes. -/
def Doing.isStep : Doing Service → Bool
  | .asked ⟨.execute _ _, _⟩ => true
  | .asked _ => false
  | .slept _ => true

/-- The statements of a diary with their results, and the sleeps. -/
def Diary.steps (diary : Diary Service) : Diary Service := diary.filter Doing.isStep

theorem Diary.steps_append (d d' : Diary Service) : (d ++ d').steps = d.steps ++ d'.steps :=
  List.filter_append ..

/-- How much is counted of one thing on an account. -/
def Diary.counted (account : Account) (meter : Meter) (diary : Diary Service) : UInt64 :=
  diary.exchanges.counted account meter

theorem Diary.counted_append (account : Account) (meter : Meter) (d d' : Diary Service) :
    (d ++ d').counted account meter = d.counted account meter + d'.counted account meter := by
  rw [counted, exchanges, List.filterMap_append]
  exact Transcript.counted_append _ _ _ _

namespace Ddl

/-- What an attempt was answered: the lock timeout could not be set, or the statement was executed
and the lock timeout undone. -/
inductive Trial where
  | unset (failure : Sql.Failure)
  | made (result undone : Except Sql.Failure Unit)

namespace Trial

/-- What an attempt comes to: nothing if the statement succeeded, its failure if that was a lock
timeout, and an error otherwise. -/
def verdict : Trial → Except Error (Option Sql.Failure)
  | unset failure => .error (.statement failure)
  | made (.ok ()) _ => .ok none
  | made (.error failure) _ =>
      if failure.isLockTimeout then .ok (some failure) else .error (.statement failure)

/-- Whether the statement ran into its lock timeout. -/
def timedOut : Trial → Bool
  | made (.error failure) _ => failure.isLockTimeout
  | _ => false

/-- The attempt for somebody who does not heed whether the lock timeout was undone. -/
def heedless : Trial → Except Sql.Failure (Except Sql.Failure Unit)
  | unset failure => .error failure
  | made result _ => .ok result

end Trial

namespace Retrier

variable (retrier : Retrier)

/-- A statement is executed with a result. -/
def executed (sql : String) (result : Except Sql.Failure Unit) : Doing Service :=
  .asked ⟨.execute retrier.session sql, result⟩

/-- What an attempt executes. -/
def trialSteps (statement : String) (entry : Attempt) : Trial → Diary Service
  | .unset failure =>
      [retrier.executed (Sql.Statement.setLockTimeout entry.lockTimeout.millis).text
        (.error failure)]
  | .made result undone =>
      [retrier.executed (Sql.Statement.setLockTimeout entry.lockTimeout.millis).text (.ok ()),
        retrier.executed statement result,
        retrier.executed Sql.Statement.resetLockTimeout.text undone]

/-- What attempts one after another execute, with a sleep between any two of them. -/
def stepsOf (statement : String) : List Attempt → List Trial → Diary Service
  | entry :: entries, trial :: trials =>
      retrier.trialSteps statement entry trial ++
        match trials with
        | [] => []
        | _ :: _ => .slept entry.sleep :: stepsOf statement entries trials
  | _, _ => []

/-- What is said of a lock timeout that could not be undone. -/
def complaint : Except Sql.Failure Unit → Diary Service
  | .ok () => []
  | .error failure => [.logged (resetFailedEvent failure)]

/-- What is counted and said of a statement that ran into its lock timeout. -/
def aftermath (number total : Nat) (entry : Attempt) (statement : String) :
    Except Sql.Failure Unit → Diary Service
  | .ok () => []
  | .error failure =>
      if failure.isLockTimeout then
        [.counted retrier.account .lockRetries,
          .logged (lockTimeoutEvent number total entry failure statement)]
      else []

/-- What an attempt does, its entries in the log included. -/
def trialDiary (number total : Nat) (entry : Attempt) (statement : String) :
    Trial → Diary Service
  | .unset failure =>
      [retrier.executed (Sql.Statement.setLockTimeout entry.lockTimeout.millis).text
        (.error failure)]
  | .made result undone =>
      [retrier.executed (Sql.Statement.setLockTimeout entry.lockTimeout.millis).text (.ok ()),
          .logged (attemptEvent number total entry statement),
          retrier.executed statement result,
          retrier.executed Sql.Statement.resetLockTimeout.text undone] ++
        (complaint undone ++ retrier.aftermath number total entry statement result)

/-- What attempts one after another do. -/
def diaryOf (total : Nat) (statement : String) : Nat → List Attempt → List Trial → Diary Service
  | number, entry :: entries, trial :: trials =>
      retrier.trialDiary number total entry statement trial ++
        match trials with
        | [] => []
        | _ :: _ => .slept entry.sleep :: diaryOf total statement (number + 1) entries trials
  | _, _, _ => []

/-- What is said at the end if no attempt is left and that is no error. -/
def parting (total : Nat) (statement : String) (raise : Bool) :
    Except Error (Except Sql.Failure Nat) → Diary Service
  | .ok (.error failure) => if raise then [] else [.logged (gaveUpEvent total failure statement)]
  | _ => []

/-- What the attempts come to. -/
def conclusion (total : Nat) (raise : Bool) :
    Except Error (Except Sql.Failure Nat) → Except Error Outcome
  | .error error => .error error
  | .ok (.ok number) => .ok (.completed number)
  | .ok (.error failure) =>
      if raise then .error (.retriesExhausted total failure) else .ok (.exhausted total)

/-- Attempts by a schedule, from one of a number on, with what becomes of them all. -/
inductive Tries : Nat → List Attempt → List Trial → Except Error (Except Sql.Failure Nat) → Prop
  | finished {number : Nat} {entry : Attempt} {entries : List Attempt} {trial : Trial}
      (h : trial.verdict = .ok none) : Tries number (entry :: entries) [trial] (.ok (.ok number))
  | failed {number : Nat} {entry : Attempt} {entries : List Attempt} {trial : Trial}
      {error : Error} (h : trial.verdict = .error error) :
      Tries number (entry :: entries) [trial] (.error error)
  | exhausted {number : Nat} {entry : Attempt} {trial : Trial} {failure : Sql.Failure}
      (h : trial.verdict = .ok (some failure)) :
      Tries number [entry] [trial] (.ok (.error failure))
  | again {number : Nat} {entry next : Attempt} {entries : List Attempt} {trial : Trial}
      {trials : List Trial} {failure : Sql.Failure}
      {result : Except Error (Except Sql.Failure Nat)} (h : trial.verdict = .ok (some failure))
      (others : Tries (number + 1) (next :: entries) trials result) :
      Tries number (entry :: next :: entries) (trial :: trials) result

theorem Tries.ne_nil {number : Nat} {entries : List Attempt} {trials : List Trial}
    {result : Except Error (Except Sql.Failure Nat)} (h : Tries number entries trials result) :
    trials ≠ [] := by
  cases h <;> exact List.cons_ne_nil _ _

section Keeps

variable {retrier} {statement : String} {total : Nat} {failed : Error → Diary Service → Prop}
  {d : Diary Service}

private theorem keeps_verdict_writing {number : Nat} {entry : Attempt}
    {ok : Option Sql.Failure → Diary Service → Prop} (result undone : Except Sql.Failure Unit) :
    (∀ value, (Trial.made result undone).verdict = .ok value →
      ok value (d ++ retrier.aftermath number total entry statement result)) →
    (∀ error, (Trial.made result undone).verdict = .error error →
      failed error (d ++ retrier.aftermath number total entry statement result)) →
    Task.Keeps (.writing Service) (fun _ _ => True) ok failed (fun _ _ => False)
      (match result with
        | .ok () => pure none
        | .error failure =>
            if failure.isLockTimeout then do
              Service.count retrier.account .lockRetries
              Service.log (lockTimeoutEvent number total entry failure statement)
              return some failure
            else throw (.statement failure)) d := by
  intro hok hfailed
  match result with
  | .ok () =>
      have hnone := hok none rfl
      rw [aftermath, List.append_nil] at hnone
      exact hnone
  | .error failure =>
      by_cases hlock : failure.isLockTimeout = true
      · have hsome := hok (some failure) (if_pos hlock)
        simp only [aftermath, hlock, if_true] at hsome ⊢
        refine Task.keeps_bind.2 (Task.keeps_liftM.2 (keeps_ask_writing fun _ => ?_))
        refine Task.keeps_bind.2 (Task.keeps_liftM.2 (keeps_ask_writing fun _ => ?_))
        rw [List.append_assoc]
        exact hsome
      · have herror := hfailed (.statement failure) (if_neg hlock)
        simp only [aftermath, hlock, if_false, Bool.false_eq_true, List.append_nil] at herror ⊢
        exact herror

/-- **One attempt**, by all that it may be answered. -/
theorem keeps_attempt_writing {number : Nat} {entry : Attempt}
    {ok : Option Sql.Failure → Diary Service → Prop}
    (hok : ∀ trial value, trial.verdict = .ok value →
      ok value (d ++ retrier.trialDiary number total entry statement trial))
    (hfailed : ∀ trial error, trial.verdict = .error error →
      failed error (d ++ retrier.trialDiary number total entry statement trial)) :
    (retrier.attempt number total entry statement).Keeps (.writing Service) (fun _ _ => True)
      ok failed (fun _ _ => False) d := by
  refine Task.keeps_bind.2 (Task.keeps_liftM.2 (keeps_ask_writing fun set => ?_))
  match set with
  | .error failure => exact hfailed (.unset failure) _ rfl
  | .ok () =>
      refine Task.keeps_bind.2 (Task.keeps_liftM.2 (keeps_ask_writing fun _ => ?_))
      refine Task.keeps_bind.2 (Task.keeps_liftM.2 (keeps_ask_writing fun result => ?_))
      refine Task.keeps_bind.2 (Task.keeps_liftM.2 (keeps_ask_writing fun undone => ?_))
      match undone with
      | .ok () =>
          refine keeps_verdict_writing result (.ok ()) (fun value h => ?_) fun error h => ?_
          · simp only [List.append_assoc]
            exact hok (.made result (.ok ())) value h
          · simp only [List.append_assoc]
            exact hfailed (.made result (.ok ())) error h
      | .error failure =>
          refine Task.keeps_bind.2 (Task.keeps_liftM.2 (keeps_ask_writing fun _ => ?_))
          refine keeps_verdict_writing result (.error failure) (fun value h => ?_) fun error h => ?_
          · simp only [List.append_assoc]
            exact hok (.made result (.error failure)) value h
          · simp only [List.append_assoc]
            exact hfailed (.made result (.error failure)) error h

theorem diaryOf_singleton (number : Nat) (entry : Attempt) (entries : List Attempt)
    (trial : Trial) : retrier.diaryOf total statement number (entry :: entries) [trial] =
      retrier.trialDiary number total entry statement trial :=
  List.append_nil _

theorem diaryOf_again {number : Nat} {entry : Attempt} {entries : List Attempt} {trial : Trial}
    {trials : List Trial} (h : trials ≠ []) :
    retrier.diaryOf total statement number (entry :: entries) (trial :: trials) =
      retrier.trialDiary number total entry statement trial ++
        .slept entry.sleep :: retrier.diaryOf total statement (number + 1) entries trials := by
  cases trials with
  | nil => exact absurd rfl h
  | cons trial trials => rfl

/-- The attempts from one of a number on, by all that they may be answered. -/
theorem keeps_tryAll_writing {ok : Except Sql.Failure Nat → Diary Service → Prop}
    (number : Nat) (entry : Attempt) (rest : List Attempt)
    (hok : ∀ trials value, Tries number (entry :: rest) trials (.ok value) →
      ok value (d ++ retrier.diaryOf total statement number (entry :: rest) trials))
    (hfailed : ∀ trials error, Tries number (entry :: rest) trials (.error error) →
      failed error (d ++ retrier.diaryOf total statement number (entry :: rest) trials)) :
    (retrier.tryAll total statement number entry rest).Keeps (.writing Service) (fun _ _ => True)
      ok failed (fun _ _ => False) d := by
  induction rest generalizing number entry d with
  | nil =>
      refine Task.keeps_bind.2 (keeps_attempt_writing (fun trial value h => ?_)
        fun trial error h => ?_)
      · rw [← diaryOf_singleton number entry []]
        match value with
        | none => exact hok [trial] (.ok number) (.finished h)
        | some failure => exact hok [trial] (.error failure) (.exhausted h)
      · rw [← diaryOf_singleton number entry []]
        exact hfailed [trial] error (.failed h)
  | cons next rest ih =>
      refine Task.keeps_bind.2 (keeps_attempt_writing (fun trial value h => ?_)
        fun trial error h => ?_)
      · match value with
        | none =>
            rw [← diaryOf_singleton number entry (next :: rest)]
            exact hok [trial] (.ok number) (.finished h)
        | some failure =>
            refine Task.keeps_bind.2 (Task.keeps_liftM.2 (Service.keeps_sleep.2 ⟨?_, False.elim⟩))
            refine ih (number + 1) next (fun trials value others => ?_)
              fun trials error others => ?_
            · have hthis := hok (trial :: trials) value (.again h others)
              rw [diaryOf_again others.ne_nil, ← List.append_assoc, List.append_cons] at hthis
              exact hthis
            · have hthis := hfailed (trial :: trials) error (.again h others)
              rw [diaryOf_again others.ne_nil, ← List.append_assoc, List.append_cons] at hthis
              exact hthis
      · rw [← diaryOf_singleton number entry (next :: rest)]
        exact hfailed [trial] error (.failed h)

/-- **A retried statement**, by all that its attempts may be answered. -/
theorem keeps_run_writing {timing : Timing} {raise : Bool} :
    (retrier.run statement timing raise).Keeps (.writing Service) (fun _ _ => True)
      (fun outcome d => ∃ trials result, Tries 1 timing.entries trials result ∧
        conclusion timing.attempts raise result = .ok outcome ∧
        d = retrier.diaryOf timing.attempts statement 1 timing.entries trials ++
          parting timing.attempts statement raise result)
      (fun error d => ∃ trials result, Tries 1 timing.entries trials result ∧
        conclusion timing.attempts raise result = .error error ∧
        d = retrier.diaryOf timing.attempts statement 1 timing.entries trials ++
          parting timing.attempts statement raise result) (fun _ _ => False) [] := by
  refine Task.keeps_bind.2 (keeps_tryAll_writing 1 timing.first timing.rest
    (fun trials value h => ?_) fun trials error h => ?_)
  · match value with
    | .ok number => exact ⟨trials, .ok (.ok number), h, rfl, (List.append_nil _).symm⟩
    | .error failure =>
        cases raise with
        | true => exact ⟨trials, .ok (.error failure), h, rfl, (List.append_nil _).symm⟩
        | false =>
            refine Task.keeps_bind.2 (Task.keeps_liftM.2 (keeps_ask_writing fun _ => ?_))
            exact ⟨trials, .ok (.error failure), h, rfl, rfl⟩
  · exact ⟨trials, .error error, h, rfl, (List.append_nil _).symm⟩

/-- What a retried statement does in any world, its entries in the log included. -/
theorem diary_run {σ : Type} (retrier : Retrier) (statement : String) (timing : Timing)
    (raise : Bool) (answer : (r : Service.Request) → σ → Service.Answer r × σ)
    (elapse : Duration → σ → σ) (s : σ) :
    ∃ trials result, Tries 1 timing.entries trials result ∧
      ((retrier.run statement timing raise).toJob.run answer elapse s).1 =
        .ok (conclusion timing.attempts raise result) ∧
      (retrier.run statement timing raise).toJob.diary answer elapse s =
        retrier.diaryOf timing.attempts statement 1 timing.entries trials ++
          parting timing.attempts statement raise result := by
  have hkeeps : (retrier.run statement timing raise).Keeps _ _ _ _ _ _ := keeps_run_writing
  obtain ⟨outcome, hrun, hend⟩ := Job.ends_of_keeps_writing answer elapse hkeeps s
  match outcome with
  | .ok outcome =>
      obtain ⟨trials, result, htries, hresult, hdiary⟩ := hend
      exact ⟨trials, result, htries, hresult ▸ hrun, hdiary⟩
  | .error error =>
      obtain ⟨trials, result, htries, hresult, hdiary⟩ := hend
      exact ⟨trials, result, htries, hresult ▸ hrun, hdiary⟩

end Keeps

/-! ### What is executed and what is counted -/

section Parts

variable {retrier} {statement : String} {number total : Nat} {entry : Attempt}

theorem steps_trialDiary (trial : Trial) :
    (retrier.trialDiary number total entry statement trial).steps =
      retrier.trialSteps statement entry trial := by
  have hcomplaint : ∀ undone, (complaint undone).steps = [] := by
    intro undone
    cases undone <;> rfl
  have haftermath : ∀ result,
      (retrier.aftermath number total entry statement result).steps = [] := by
    intro result
    cases result with
    | ok value => rfl
    | error failure =>
        rw [aftermath]
        split <;> rfl
  cases trial with
  | unset failure => rfl
  | made result undone =>
      rw [trialDiary, Diary.steps_append, Diary.steps_append, hcomplaint, haftermath]
      rfl

theorem steps_diaryOf (entries : List Attempt) (trials : List Trial) :
    (retrier.diaryOf total statement number entries trials).steps =
      retrier.stepsOf statement entries trials := by
  induction entries generalizing number trials with
  | nil => rfl
  | cons entry entries ih =>
      match trials with
      | [] => rfl
      | [trial] =>
          rw [diaryOf_singleton, steps_trialDiary]
          exact (List.append_nil _).symm
      | trial :: next :: trials =>
          rw [diaryOf_again (List.cons_ne_nil _ _), Diary.steps_append, steps_trialDiary, stepsOf]
          exact congrArg (fun rest => _ ++ .slept entry.sleep :: rest) (ih (next :: trials))

theorem steps_parting (raise : Bool) (result : Except Error (Except Sql.Failure Nat)) :
    (parting total statement raise result).steps = [] := by
  unfold parting
  split
  · cases raise <;> rfl
  · rfl

theorem counted_parting (account : Account) (meter : Meter) (raise : Bool)
    (result : Except Error (Except Sql.Failure Nat)) :
    (parting total statement raise result).counted account meter = 0 := by
  unfold parting
  split
  · cases raise <;> rfl
  · rfl

/-- How often retries are counted in a diary. -/
def retries (account : Account) (diary : Diary Service) : UInt64 :=
  diary.exchanges.counted account .lockRetries

theorem retries_append (account : Account) (d d' : Diary Service) :
    retries account (d ++ d') = retries account d + retries account d' :=
  Diary.counted_append _ _ _ _

theorem retries_counted (account : Account) (event : Event) :
    retries account [.counted account .lockRetries, .logged event] = 1 := by
  simp [retries, Diary.exchanges, Doing.exchange?, Doing.counted, Doing.logged,
    Transcript.counted, Exchange.counted]

theorem retries_trialDiary (trial : Trial) :
    retries retrier.account (retrier.trialDiary number total entry statement trial) =
      UInt64.ofNat ([trial].countP Trial.timedOut) := by
  have hcomplaint : ∀ undone, retries retrier.account (complaint undone) = 0 := by
    intro undone
    cases undone <;> rfl
  cases trial with
  | unset failure => rfl
  | made result undone =>
      rw [trialDiary, retries_append, retries_append, hcomplaint, List.countP_singleton]
      cases result with
      | ok value => rfl
      | error failure =>
          rw [aftermath, Trial.timedOut]
          by_cases hlock : failure.isLockTimeout = true
          · rw [if_pos hlock, if_pos hlock, retries_counted]
            rfl
          · rw [if_neg hlock, if_neg hlock]
            rfl

theorem retries_diaryOf {trials : List Trial} {result : Except Error (Except Sql.Failure Nat)}
    {entries : List Attempt} (h : Tries number entries trials result) :
    retries retrier.account (retrier.diaryOf total statement number entries trials) =
      UInt64.ofNat (trials.countP Trial.timedOut) := by
  induction h with
  | finished _ | failed _ | exhausted _ => rw [diaryOf_singleton, retries_trialDiary]
  | @again number entry next entries trial trials failure result h others ih =>
      have hslept (rest : Diary Service) :
          retries retrier.account (.slept entry.sleep :: rest) = retries retrier.account rest := rfl
      rw [diaryOf_again others.ne_nil, retries_append, retries_trialDiary, hslept, ih,
        ← UInt64.ofNat_add, ← List.countP_append, List.singleton_append]

theorem retries_parting (account : Account) (raise : Bool)
    (result : Except Error (Except Sql.Failure Nat)) :
    retries account (parting total statement raise result) = 0 :=
  counted_parting _ _ _ _

section Counted

variable {account : Account} {meter : Meter} (other : meter ≠ .lockRetries)
include other

theorem counted_trialDiary (entry : Attempt) (trial : Trial) :
    (retrier.trialDiary number total entry statement trial).counted account meter = 0 := by
  have complaint : ∀ undone, (complaint undone).counted account meter = 0 := by
    intro undone
    cases undone <;> rfl
  have aftermath : ∀ result,
      (retrier.aftermath number total entry statement result).counted account meter = 0 := by
    intro result
    unfold aftermath
    split
    · rfl
    · split
      · simp [Diary.counted, Diary.exchanges, Doing.exchange?, Doing.counted, Doing.logged,
          Transcript.counted, Exchange.counted, other.symm]
      · rfl
  cases trial with
  | unset failure => rfl
  | made result undone =>
      rw [trialDiary, Diary.counted_append, Diary.counted_append, complaint, aftermath]
      rfl

/-- Attempts count lock timeouts alone. -/
theorem counted_diaryOf {entries : List Attempt} {trials : List Trial}
    {result : Except Error (Except Sql.Failure Nat)} (h : Tries number entries trials result) :
    (retrier.diaryOf total statement number entries trials).counted account meter = 0 := by
  induction h with
  | finished _ | failed _ | exhausted _ => rw [diaryOf_singleton, counted_trialDiary other]
  | @again number entry next entries trial trials failure result h others ih =>
      have slept (rest : Diary Service) : Diary.counted account meter (.slept entry.sleep :: rest) =
          rest.counted account meter := rfl
      rw [diaryOf_again others.ne_nil, Diary.counted_append, counted_trialDiary other, slept, ih]
      rfl

variable (retrier) (statement) (account) in
open Simulation in
/-- A retried statement counts nothing but lock timeouts. -/
theorem tally_run (timing : Timing) (raise : Bool) (world : World) :
    ((retrier.run statement timing raise).toJob.run World.answer World.elapse world).2.tally
      account meter = world.tally account meter := by
  obtain ⟨trials, result, tries, -, diary⟩ :=
    diary_run retrier statement timing raise World.answer World.elapse world
  have counted : Diary.counted account meter ((retrier.run statement timing raise).toJob.diary
      World.answer World.elapse world) = 0 := by
    rw [diary, Diary.counted_append, counted_diaryOf other tries, counted_parting]
    rfl
  rw [Diary.counted, Job.exchanges_diary] at counted
  rw [World.tally_run, counted, UInt64.add_zero]

end Counted

end Parts

end Retrier

end Ddl

end Upkeep
