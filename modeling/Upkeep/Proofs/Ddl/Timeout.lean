import Upkeep.Proofs.Ddl.Course

/-!
# The lock timeouts of retried statements

Before each attempt the lock timeout is set, in whole milliseconds, so what is set for an entry
of less than a millisecond is zero; and to the database zero means that there is no timeout.  A
statement is executed under a timeout whatever happens exactly if no entry of the schedule is that
short.

## Main Definitions

* `Diary.executions` — the statements of a diary with their results.
* `Sql.setTimeout?` — the milliseconds that a statement sets the lock timeout to.
* `Sql.lockTimeout?` — the lock timeout of a session after statements.

## Main Statements

* `Sql.setTimeout?_setLockTimeout` — what a statement sets the timeout to is read back.
* `bounded_iff` — when no statement waits for its lock without bound.
-/

namespace Upkeep

/-! ### Timeouts -/

theorem Duration.millis_pos_iff {length : Duration} :
    0 < length.millis ↔ Duration.ofMillis 1 ≤ length := by
  rw [Duration.millis, Nat.div_pos_iff]
  exact and_iff_right (by decide)

/-- A statement that was executed, with its result. -/
def Doing.execution? : Doing Service → Option (String × Except Sql.Failure Unit)
  | .asked ⟨.execute _ sql, result⟩ => some (sql, result)
  | _ => none

/-- The statements of a diary with their results. -/
def Diary.executions (diary : Diary Service) : List (String × Except Sql.Failure Unit) :=
  diary.filterMap Doing.execution?

theorem Diary.executions_append (d d' : Diary Service) :
    (d ++ d').executions = d.executions ++ d'.executions :=
  List.filterMap_append

namespace Sql

/-- The number of milliseconds that a statement sets the lock timeout to, if it does. -/
def setTimeout? (sql : String) : Option Nat :=
  (Text.after? "SET lock_timeout TO '".toList sql.toList).bind fun rest =>
    if "ms'".toList.isSuffixOf rest then Text.natural? (rest.take (rest.length - 3)) else none

/-- The lock timeout that a session has set after statements with these results, in milliseconds;
zero stands for waiting without bound.  There is none unless one was set and not undone. -/
def lockTimeout? (executions : List (String × Except Failure Unit)) : Option Nat :=
  executions.foldl (fun timeout? execution =>
    match execution.2 with
    | .error _ => timeout?
    | .ok () =>
        if execution.1 = Statement.resetLockTimeout.text then none
        else (setTimeout? execution.1).or timeout?) none

theorem setTimeout?_setLockTimeout (millis : Nat) :
    setTimeout? (Statement.setLockTimeout millis).text = some millis := by
  have hnumeral : (toString millis).toList = Nat.toDigits 10 millis := String.toList_ofList
  have htext : (Statement.setLockTimeout millis).text.toList =
      "SET lock_timeout TO '".toList ++ (Nat.toDigits 10 millis ++ "ms'".toList) := by
    unfold Statement.text
    simp only [String.toList_append, List.append_assoc, hnumeral]
  rw [setTimeout?, htext, Text.after?_append, Option.bind_some, if_pos (by simp)]
  simp

theorem setTimeout?_resetLockTimeout : setTimeout? Statement.resetLockTimeout.text = none := by
  decide

/-- A timeout that was set last is the one that is set. -/
theorem lockTimeout?_concat_set (executions : List (String × Except Failure Unit))
    (millis : Nat) :
    lockTimeout? (executions ++ [((Statement.setLockTimeout millis).text, .ok ())]) =
      some millis := by
  have hreset : (Statement.setLockTimeout millis).text ≠ Statement.resetLockTimeout.text := by
    intro h
    have hset := setTimeout?_setLockTimeout millis
    rw [h, setTimeout?_resetLockTimeout] at hset
    cases hset
  rw [lockTimeout?, List.foldl_append, List.foldl_cons, List.foldl_nil]
  simp only [if_neg hreset, setTimeout?_setLockTimeout, Option.some_or]

end Sql

/-! ### Places of statements -/

namespace Ddl

/-- The places of the second one of each three. -/
private theorem second_of_three {α : Type} {a b c e : α} {rest before after : List α}
    (h : a :: b :: c :: rest = before ++ e :: after) (hplace : before.length % 3 = 1) :
    (before = [a] ∧ e = b) ∨
      ∃ before', before = a :: b :: c :: before' ∧ rest = before' ++ e :: after ∧
        before'.length % 3 = 1 := by
  match before with
  | [] => cases hplace
  | [x] =>
      cases h
      exact .inl ⟨rfl, rfl⟩
  | [x, y] => cases hplace
  | x :: y :: z :: before' =>
      cases h
      refine .inr ⟨before', rfl, rfl, ?_⟩
      rw [List.length_cons, List.length_cons, List.length_cons] at hplace
      omega

namespace Retrier

variable {retrier : Retrier} {statement : String} {number total : Nat} {entry : Attempt}
  {entries : List Attempt} {trials : List Trial} {result : Except Error (Except Sql.Failure Nat)}

/-- Setting the lock timeout of an entry succeeds. -/
def timeoutSet (entry : Attempt) : String × Except Sql.Failure Unit :=
  ((Sql.Statement.setLockTimeout entry.lockTimeout.millis).text, .ok ())

theorem executions_steps (diary : Diary Service) : diary.steps.executions = diary.executions := by
  induction diary with
  | nil => rfl
  | cons doing rest ih =>
      match doing with
      | .slept length => exact ih
      | .asked ⟨request, answer⟩ =>
          cases request with
          | execute session sql => exact congrArg (List.cons _) ih
          | _ => exact ih

/-- What a retried statement executes in any world. -/
theorem executions_run {σ : Type} (retrier : Retrier) (statement : String) (timing : Timing)
    (raise : Bool) (answer : (r : Service.Request) → σ → Service.Answer r × σ)
    (elapse : Duration → σ → σ) (s : σ) :
    ∃ trials result, Tries 1 timing.entries trials result ∧
      ((retrier.run statement timing raise).toJob.diary answer elapse s).executions =
        (retrier.stepsOf statement timing.entries trials).executions := by
  obtain ⟨trials, result, htries, -, hdiary⟩ :=
    retrier.diary_run statement timing raise answer elapse s
  refine ⟨trials, result, htries, ?_⟩
  rw [hdiary, ← executions_steps, Diary.steps_append, steps_diaryOf, steps_parting,
    List.append_nil]

theorem executions_stepsOf_singleton (entry : Attempt) (entries : List Attempt) (trial : Trial) :
    (retrier.stepsOf statement (entry :: entries) [trial]).executions =
      (retrier.trialSteps statement entry trial).executions :=
  congrArg Diary.executions (List.append_nil _)

theorem executions_stepsOf_again (trial : Trial) (h : trials ≠ []) :
    (retrier.stepsOf statement (entry :: entries) (trial :: trials)).executions =
      (retrier.trialSteps statement entry trial).executions ++
        (retrier.stepsOf statement entries trials).executions := by
  cases trials with
  | nil => exact absurd rfl h
  | cons next trials => exact Diary.executions_append _ _

/-- The statement of one attempt is executed where its lock timeout has just been set. -/
private theorem set_before_of_singleton {trial : Trial} (hm : entry ∈ entries)
    {before after : List (String × Except Sql.Failure Unit)}
    {execution : String × Except Sql.Failure Unit}
    (heq : (retrier.trialSteps statement entry trial).executions = before ++ execution :: after)
    (hplace : before.length % 3 = 1) :
    execution.1 = statement ∧
      ∃ earlier, ∃ entry ∈ entries, before = earlier ++ [timeoutSet entry] := by
  cases trial with
  | unset failure =>
      match before with
      | [] => cases hplace
      | x :: before => cases (List.append_eq_nil_iff.1 (List.cons.inj heq).2.symm).2
  | made result undone =>
      rcases second_of_three heq hplace with ⟨rfl, rfl⟩ | ⟨before', -, hnil, -⟩
      · exact ⟨rfl, [], entry, hm, rfl⟩
      · cases (List.append_eq_nil_iff.1 hnil.symm).2

/-- Where the statement of an attempt is executed, the lock timeout of an entry was set just
before. -/
theorem Tries.set_before (h : Tries number entries trials result)
    {before after : List (String × Except Sql.Failure Unit)}
    {execution : String × Except Sql.Failure Unit}
    (heq : (retrier.stepsOf statement entries trials).executions = before ++ execution :: after)
    (hplace : before.length % 3 = 1) :
    execution.1 = statement ∧
      ∃ earlier, ∃ entry ∈ entries, before = earlier ++ [timeoutSet entry] := by
  induction h generalizing before with
  | finished _ | failed _ | exhausted _ =>
      rw [executions_stepsOf_singleton] at heq
      exact set_before_of_singleton List.mem_cons_self heq hplace
  | @again number entry next entries trial trials failure result h others ih =>
      match trial with
      | .unset failure => cases h
      | .made result undone =>
          rw [executions_stepsOf_again _ others.ne_nil] at heq
          rcases second_of_three heq hplace with ⟨rfl, rfl⟩ | ⟨before', rfl, hrest, hplace'⟩
          · exact ⟨rfl, [], entry, List.mem_cons_self, rfl⟩
          · obtain ⟨hsame, earlier, other, hm, rfl⟩ := ih hrest hplace'
            exact ⟨hsame, _ :: _ :: _ :: earlier, other, List.mem_cons_of_mem _ hm, rfl⟩

theorem exists_of_timedOut {trial : Trial} (h : trial.timedOut = true) :
    ∃ failure undone, trial = .made (.error failure) undone ∧
      trial.verdict = .ok (some failure) := by
  match trial with
  | .unset _ => cases h
  | .made (.ok ()) _ => cases h
  | .made (.error failure) undone => exact ⟨failure, undone, rfl, if_pos h⟩

/-- If all attempts run into their lock timeouts, the timeout of each entry is set once just
before the statement. -/
theorem Tries.reaches (h : Tries number entries trials result)
    (hall : ∀ trial ∈ trials, trial.timedOut = true) (hm : entry ∈ entries) :
    ∃ before execution after,
      (retrier.stepsOf statement entries trials).executions = before ++ execution :: after ∧
        before.length % 3 = 1 ∧ ∃ earlier, before = earlier ++ [timeoutSet entry] := by
  induction h with
  | finished h | failed h =>
      obtain ⟨failure, undone, -, hverdict⟩ := exists_of_timedOut (hall _ List.mem_cons_self)
      cases h.symm.trans hverdict
  | @exhausted number first trial failure h =>
      obtain ⟨failure, undone, rfl, -⟩ := exists_of_timedOut (hall trial List.mem_cons_self)
      obtain rfl := List.mem_singleton.1 hm
      rw [executions_stepsOf_singleton]
      exact ⟨[timeoutSet entry], _, _, rfl, rfl, [], rfl⟩
  | @again number first next entries trial trials failure result h others ih =>
      obtain ⟨hfirst, hrest⟩ := List.forall_mem_cons.1 hall
      obtain ⟨failure, undone, rfl, -⟩ := exists_of_timedOut hfirst
      rw [executions_stepsOf_again _ others.ne_nil]
      rcases List.mem_cons.1 hm with rfl | hm
      · exact ⟨[timeoutSet entry], _, _, rfl, rfl, [], rfl⟩
      · obtain ⟨before, execution, after, heq, hplace, earlier, rfl⟩ := ih hrest hm
        let group := [timeoutSet first, (statement, .error failure),
          (Sql.Statement.resetLockTimeout.text, undone)]
        refine ⟨group ++ (earlier ++ [timeoutSet entry]), execution, after, ?_, ?_,
          group ++ earlier, (List.append_assoc _ _ _).symm⟩
        · rw [heq]
          rfl
        · rw [List.length_append, ← hplace]
          exact Nat.add_mod_left 3 _

end Retrier

/-! ### A busy database -/

/-- A statement for which the database never has a lock. -/
def busyStatement : String := "ANALYZE"

/-- The result of a statement in the busy database. -/
def busyResult (sql : String) : Except Sql.Failure Unit :=
  if sql = busyStatement then .error (.lockTimeout "canceling statement due to lock timeout")
  else .ok ()

/-- A database in which one statement always runs into its lock timeout, and others succeed. -/
def busyAnswer (r : Service.Request) (_ : Unit) : Service.Answer r × Unit :=
  match r with
  | .execute _ sql => (busyResult sql, ())
  | r => ((Simulation.World.answer r default).1, ())

theorem executions_busy {α : Type} (job : Job Service α) (elapse : Duration → Unit → Unit) :
    ∀ execution ∈ (job.diary busyAnswer elapse ()).executions,
      execution.2 = busyResult execution.1 := by
  induction job with
  | done value => exact fun _ hm => absurd hm List.not_mem_nil
  | stop why => exact fun _ hm => absurd hm List.not_mem_nil
  | sleep length next ih => exact ih _
  | ask request next ih =>
      cases request with
      | execute session sql => exact List.forall_mem_cons.2 ⟨rfl, ih _⟩
      | _ => exact ih _

theorem busyResult_setLockTimeout (millis : Nat) :
    busyResult (Sql.Statement.setLockTimeout millis).text = .ok () := by
  refine if_neg fun h => ?_
  have hset := Sql.setTimeout?_setLockTimeout millis
  have hnone : Sql.setTimeout? busyStatement = none := by decide
  rw [h, hnone] at hset
  cases hset

variable {retrier : Retrier}

theorem Trial.timedOut_of_busy {trial : Trial} {entry : Attempt}
    (hall : ∀ execution ∈ (retrier.trialSteps busyStatement entry trial).executions,
      execution.2 = busyResult execution.1) : trial.timedOut = true := by
  cases trial with
  | unset failure =>
      have hset := hall _ List.mem_cons_self
      rw [busyResult_setLockTimeout] at hset
      cases hset
  | made result undone =>
      have hresult : result = busyResult busyStatement :=
        hall _ (List.mem_cons_of_mem _ List.mem_cons_self)
      rw [hresult]
      rfl

/-- In the busy database all attempts run into their lock timeouts. -/
theorem Retrier.Tries.timedOut_of_busy {number : Nat} {entries : List Attempt}
    {trials : List Trial} {result : Except Error (Except Sql.Failure Nat)}
    (h : Tries number entries trials result)
    (hall : ∀ execution ∈ (retrier.stepsOf busyStatement entries trials).executions,
      execution.2 = busyResult execution.1) : ∀ trial ∈ trials, trial.timedOut = true := by
  induction h with
  | finished _ | failed _ | exhausted _ =>
      rw [executions_stepsOf_singleton] at hall
      exact List.forall_mem_singleton.2 (Trial.timedOut_of_busy hall)
  | @again number entry next entries trial trials failure result h others ih =>
      rw [executions_stepsOf_again _ others.ne_nil] at hall
      obtain ⟨hfirst, hrest⟩ := List.forall_mem_append.1 hall
      exact List.forall_mem_cons.2 ⟨Trial.timedOut_of_busy hfirst, ih hrest⟩

/-- **When no statement waits for its lock without bound.**  Whatever a retried statement is
answered, and whenever it is executed, which is the second of three executions each, the lock
timeout that was set last is a positive number of milliseconds: that is so exactly if no entry of
the schedule is shorter than a millisecond.  For a shorter one the timeout is set to zero, and so
is turned off. -/
theorem bounded_iff (retrier : Retrier) (timing : Timing) (raise : Bool) :
    (∀ (statement : String) {σ : Type}
        (answer : (r : Service.Request) → σ → Service.Answer r × σ) (elapse : Duration → σ → σ)
        (s : σ) before execution after,
      ((retrier.run statement timing raise).toJob.diary answer elapse s).executions =
          before ++ execution :: after →
        before.length % 3 = 1 →
          execution.1 = statement ∧
            ∃ millis, 0 < millis ∧ Sql.lockTimeout? before = some millis) ↔
      ∀ entry ∈ timing.entries, Duration.ofMillis 1 ≤ entry.lockTimeout := by
  constructor
  · intro hbounded entry hm
    obtain ⟨trials, result, htries, hexecuted⟩ :=
      retrier.executions_run busyStatement timing raise busyAnswer (fun _ => id) ()
    have hbusy := executions_busy (retrier.run busyStatement timing raise).toJob (fun _ => id)
    rw [hexecuted] at hbusy
    obtain ⟨before, execution, after, heq, hplace, earlier, rfl⟩ :=
      htries.reaches (htries.timedOut_of_busy hbusy) hm
    obtain ⟨-, millis, hmillis, htimeout⟩ :=
      hbounded busyStatement busyAnswer (fun _ => id) () _ _ _ (hexecuted.trans heq) hplace
    rw [Retrier.timeoutSet, Sql.lockTimeout?_concat_set] at htimeout
    rw [← Duration.millis_pos_iff, Option.some.inj htimeout]
    exact hmillis
  · intro hlong statement σ answer elapse s before execution after heq hplace
    obtain ⟨trials, result, htries, hexecuted⟩ :=
      retrier.executions_run statement timing raise answer elapse s
    obtain ⟨hsame, earlier, entry, hm, rfl⟩ := htries.set_before (hexecuted.symm.trans heq) hplace
    exact ⟨hsame, _, Duration.millis_pos_iff.2 (hlong entry hm),
      Sql.lockTimeout?_concat_set _ _⟩

end Ddl

end Upkeep
