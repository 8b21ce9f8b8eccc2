import Upkeep.Proofs.Ddl.Schedule
import Upkeep.Proofs.Ddl.Timeout
import Upkeep.Proofs.Sql.Quoting

/-!
# What became of a retried statement, by its executions

Of a retried statement the database sees nothing but executions with their results.  They tell how
it ended: it succeeded, each attempt ran into its lock timeout, or something failed otherwise.

## Main Definitions

* `Diary.resultsOf` — the results of one statement.
* `Sql.IsOrdinary` — a text that is no statement about lock timeouts.
* `Retrier.Refused` — a lock timeout of the schedule could not be set.
* `Seen` — how a statement ends, by its results.

## Main Statements

* `Retrier.executions_stepsOf` — the executions of all attempts are those of each.
* `Retrier.Tries.seen` — what is seen of a retried statement.
* `Seen.completed_iff`, `Seen.exhausted_iff`, `Seen.failed_iff` — the ends by what is seen.
-/

namespace Upkeep

/-- The results of a statement, in the order of its executions. -/
def Diary.resultsOf (sql : String) (diary : Diary Service) : List (Except Sql.Failure Unit) :=
  (diary.executions.filter fun execution => execution.1 = sql).map Prod.snd

namespace Sql

/-- Whether a statement with this result ran into its lock timeout. -/
def timedOut : Except Failure Unit → Bool
  | .ok () => false
  | .error failure => failure.isLockTimeout

/-- The text neither sets a lock timeout nor undoes one. -/
structure IsOrdinary (sql : String) : Prop where
  ne_set : ∀ millis, (Statement.setLockTimeout millis).text ≠ sql
  ne_reset : Statement.resetLockTimeout.text ≠ sql

theorem isOrdinary_dropIndex (schema name : String) :
    IsOrdinary (Statement.dropIndex schema name).text where
  ne_set _ same := nomatch Statement.text_injective same
  ne_reset same := nomatch Statement.text_injective same

end Sql

namespace Ddl

open Sql (IsOrdinary)

/-- The result of the statement, if it was executed. -/
def Trial.result? : Trial → Option (Except Sql.Failure Unit)
  | unset _ => none
  | made result _ => some result

namespace Retrier

variable {retrier : Retrier} {statement : String} {number : Nat} {entries : List Attempt}
  {trials : List Trial} {result : Except Error (Except Sql.Failure Nat)}

/-- A lock timeout of the schedule could not be set, for this reason. -/
def Refused (entries : List Attempt) (executions : List (String × Except Sql.Failure Unit))
    (failure : Sql.Failure) : Prop :=
  ∃ entry ∈ entries,
    ((Sql.Statement.setLockTimeout entry.lockTimeout.millis).text, .error failure) ∈ executions

/-- **The executions of attempts** are those of each, one attempt after the other. -/
theorem executions_stepsOf (entries : List Attempt) (trials : List Trial) :
    (retrier.stepsOf statement entries trials).executions =
      (entries.zip trials).flatMap fun pair =>
        (retrier.trialSteps statement pair.1 pair.2).executions := by
  induction entries generalizing trials with
  | nil => rfl
  | cons entry entries ih =>
      match trials with
      | [] => rfl
      | [trial] => rw [executions_stepsOf_singleton]; simp
      | trial :: next :: trials =>
          rw [executions_stepsOf_again _ (List.cons_ne_nil _ _), ih]
          rfl

/-- What is executed at all: lock timeouts of the schedule are set and undone, and there is the
statement. -/
theorem mem_executions_stepsOf {execution : String × Except Sql.Failure Unit}
    (mem : execution ∈ (retrier.stepsOf statement entries trials).executions) :
    execution.1 = statement ∨ execution.1 = Sql.Statement.resetLockTimeout.text ∨
      ∃ entry ∈ entries,
        execution.1 = (Sql.Statement.setLockTimeout entry.lockTimeout.millis).text := by
  rw [executions_stepsOf] at mem
  obtain ⟨⟨entry, trial⟩, pair, mem⟩ := List.mem_flatMap.1 mem
  have scheduled := (List.of_mem_zip pair).1
  match trial with
  | .unset failure =>
      obtain rfl := List.mem_singleton.1 mem
      exact .inr (.inr ⟨entry, scheduled, rfl⟩)
  | .made result undone =>
      rcases List.mem_cons.1 mem with rfl | mem
      · exact .inr (.inr ⟨entry, scheduled, rfl⟩)
      rcases List.mem_cons.1 mem with rfl | mem
      · exact .inl rfl
      · obtain rfl := List.mem_singleton.1 mem
        exact .inr (.inl rfl)

section Ordinary

variable (ordinary : IsOrdinary statement)

include ordinary

theorem resultsOf_trialSteps (entry : Attempt) (trial : Trial) :
    (retrier.trialSteps statement entry trial).resultsOf statement = trial.result?.toList := by
  cases trial with
  | unset failure =>
      simp [trialSteps, Diary.resultsOf, Diary.executions, Doing.execution?, executed,
        Trial.result?, ordinary.ne_set]
  | made result undone =>
      simp [trialSteps, Diary.resultsOf, Diary.executions, Doing.execution?, executed,
        Trial.result?, ordinary.ne_set, ordinary.ne_reset]

/-- The statement has a result on each attempt but one whose lock timeout could not be set. -/
theorem Tries.resultsOf (h : Tries number entries trials result) :
    (retrier.stepsOf statement entries trials).resultsOf statement =
      trials.filterMap Trial.result? := by
  have first (trial : Trial) (trials : List Trial) : (trial :: trials).filterMap Trial.result? =
      trial.result?.toList ++ trials.filterMap Trial.result? := by
    cases trial <;> rfl
  induction h with
  | finished _ | failed _ | exhausted _ =>
      rw [Diary.resultsOf, executions_stepsOf_singleton, ← Diary.resultsOf,
        resultsOf_trialSteps ordinary, first, List.filterMap_nil, List.append_nil]
  | again _ others ih =>
      rw [Diary.resultsOf, executions_stepsOf_again _ others.ne_nil, List.filter_append,
        List.map_append, ← Diary.resultsOf, ← Diary.resultsOf, resultsOf_trialSteps ordinary, ih,
        first]

/-- The reason for which a lock timeout could not be set is that of an attempt. -/
theorem Tries.refused_iff (h : Tries number entries trials result) (failure : Sql.Failure) :
    Refused entries (retrier.stepsOf statement entries trials).executions failure ↔
      .unset failure ∈ trials := by
  unfold Refused
  rw [executions_stepsOf]
  constructor
  · rintro ⟨entry, -, mem⟩
    obtain ⟨⟨entry', trial⟩, pair, mem⟩ := List.mem_flatMap.1 mem
    have made := (List.of_mem_zip pair).2
    match trial with
    | .unset failure' =>
        obtain rfl := Except.error.inj (congrArg Prod.snd (List.mem_singleton.1 mem))
        exact made
    | .made result undone =>
        have ne_reset : (Sql.Statement.setLockTimeout entry.lockTimeout.millis).text ≠
            Sql.Statement.resetLockTimeout.text :=
          fun same => nomatch Sql.Statement.text_injective same
        simp [trialSteps, Diary.executions, Doing.execution?, executed, ordinary.ne_set,
          ne_reset] at mem
  · intro made
    obtain ⟨earlier, last, rfl, few, -⟩ := h.exists_last
    have scheduled : (entries.zip (earlier ++ [last])).map Prod.snd = earlier ++ [last] :=
      List.map_snd_zip (by rw [List.length_append]; exact few)
    rw [← scheduled] at made
    obtain ⟨⟨entry, trial⟩, pair, rfl⟩ := List.mem_map.1 made
    exact ⟨entry, (List.of_mem_zip pair).1, List.mem_flatMap.2 ⟨_, pair, List.mem_cons_self⟩⟩

end Ordinary

end Retrier

/-! ### How a retried statement ends -/

/-- How a statement that may be given up ends, by its results and by the failure to set a lock
timeout, if there is one. -/
inductive Seen (total : Nat) :
    List (Except Sql.Failure Unit) → Option Sql.Failure → Except Error Outcome → Prop
  /-- It succeeds. -/
  | completed {waited : List (Except Sql.Failure Unit)} (attempts : Nat)
      (locked : ∀ result ∈ waited, Sql.timedOut result = true) :
      Seen total (waited ++ [.ok ()]) none (.ok (.completed attempts))
  /-- All attempts ran into their lock timeouts. -/
  | exhausted {waited : List (Except Sql.Failure Unit)} (all : waited.length = total)
      (locked : ∀ result ∈ waited, Sql.timedOut result = true) :
      Seen total waited none (.ok (.exhausted total))
  /-- A lock timeout could not be set. -/
  | unset {waited : List (Except Sql.Failure Unit)} (failure : Sql.Failure)
      (few : waited.length < total) (locked : ∀ result ∈ waited, Sql.timedOut result = true) :
      Seen total waited (some failure) (.error (.statement failure))
  /-- It fails otherwise than by a lock timeout. -/
  | failed {waited : List (Except Sql.Failure Unit)} (failure : Sql.Failure)
      (locked : ∀ result ∈ waited, Sql.timedOut result = true)
      (other : failure.isLockTimeout = false) :
      Seen total (waited ++ [.error failure]) none (.error (.statement failure))

/-- What is seen of attempts that ran into their lock timeouts. -/
theorem results_of_timedOut {trials : List Trial} (h : ∀ trial ∈ trials, trial.timedOut = true) :
    (trials.filterMap Trial.result?).length = trials.length ∧
      (∀ result ∈ trials.filterMap Trial.result?, Sql.timedOut result = true) ∧
        ∀ failure, .unset failure ∉ trials := by
  induction trials with
  | nil => exact ⟨rfl, nofun, nofun⟩
  | cons trial trials ih =>
      obtain ⟨first, rest⟩ := List.forall_mem_cons.1 h
      obtain ⟨failure, undone, rfl, -⟩ := Retrier.exists_of_timedOut first
      obtain ⟨length, locked, set⟩ := ih rest
      refine ⟨congrArg Nat.succ length, List.forall_mem_cons.2 ⟨first, locked⟩,
        fun failure' mem => ?_⟩
      rcases List.mem_cons.1 mem with same | mem
      · cases same
      · exact set failure' mem

/-- **What is seen of a retried statement** tells how it ends. -/
theorem Retrier.Tries.seen {statement : String} {timing : Timing} {trials : List Trial}
    {result : Except Error (Except Sql.Failure Nat)} (h : Tries 1 timing.entries trials result)
    (retrier : Retrier) (ordinary : IsOrdinary statement) :
    ∃ refused, Seen timing.attempts
        ((retrier.stepsOf statement timing.entries trials).resultsOf statement) refused
        (conclusion timing.attempts false result) ∧
      ∀ failure, Refused timing.entries
        (retrier.stepsOf statement timing.entries trials).executions failure ↔
          refused = some failure := by
  have ends : Ends timing.attempts false trials (conclusion timing.attempts false result) := h.ends
  simp only [h.resultsOf ordinary, h.refused_iff ordinary]
  generalize conclusion timing.attempts false result = ending at ends ⊢
  cases ends with
  | @completed earlier undone few waited =>
      obtain ⟨length, locked, set⟩ := results_of_timedOut waited
      refine ⟨none, ?_, fun failure => ?_⟩
      · rw [List.filterMap_append]
        exact .completed _ locked
      · simp [set failure]
  | @unset earlier failure few waited =>
      obtain ⟨length, locked, set⟩ := results_of_timedOut waited
      refine ⟨some failure, ?_, fun failure' => ?_⟩
      · rw [List.filterMap_append, show [Trial.unset failure].filterMap Trial.result? = [] from rfl,
          List.append_nil]
        exact .unset failure (length ▸ few) locked
      · simp [set failure', eq_comm]
  | @failed earlier failure undone few waited other =>
      obtain ⟨length, locked, set⟩ := results_of_timedOut waited
      refine ⟨none, ?_, fun failure' => ?_⟩
      · rw [List.filterMap_append]
        exact .failed failure locked other
      · simp [set failure']
  | @exhausted earlier failure undone all waited lock =>
      obtain ⟨length, locked, set⟩ := results_of_timedOut waited
      refine ⟨none, ?_, fun failure' => ?_⟩
      · rw [List.filterMap_append]
        refine .exhausted ?_ fun result mem => ?_
        · rw [List.length_append, length]
          exact all
        · rcases List.mem_append.1 mem with mem | mem
          · exact locked result mem
          · rw [List.mem_singleton.1 mem]
            exact lock
      · simp [set failure']

namespace Seen

variable {total : Nat} {results : List (Except Sql.Failure Unit)} {refused : Option Sql.Failure}
  {ending : Except Error Outcome}

/-- A result that is no lock timeout is not among those of attempts that ran into theirs. -/
private theorem absurd_of_mem {waited : List (Except Sql.Failure Unit)}
    (locked : ∀ result ∈ waited, Sql.timedOut result = true) {result : Except Sql.Failure Unit}
    (mem : result ∈ waited) (other : Sql.timedOut result = false) {P : Prop} : P := by
  rw [locked result mem] at other
  cases other

/-- **When a statement has succeeded**: its last result says so, and before that it ran into
lock timeouts. -/
theorem completed_iff (h : Seen total results refused ending) :
    (∃ attempts, ending = .ok (.completed attempts)) ↔
      ∃ waited, results = waited ++ [.ok ()] ∧
        ∀ result ∈ waited, Sql.timedOut result = true := by
  have succeeds (waited : List (Except Sql.Failure Unit)) : .ok () ∈ waited ++ [.ok ()] :=
    List.mem_append_right _ List.mem_cons_self
  cases h with
  | completed attempts locked => exact ⟨fun _ => ⟨_, rfl, locked⟩, fun _ => ⟨attempts, rfl⟩⟩
  | exhausted all locked =>
      refine ⟨nofun, ?_⟩
      rintro ⟨waited, rfl, -⟩
      exact absurd_of_mem locked (succeeds waited) rfl
  | unset failure few locked =>
      refine ⟨nofun, ?_⟩
      rintro ⟨waited, rfl, -⟩
      exact absurd_of_mem locked (succeeds waited) rfl
  | failed failure locked other =>
      refine ⟨nofun, ?_⟩
      rintro ⟨waited, same, -⟩
      cases List.singleton_inj.1 (List.append_inj' same rfl).2

/-- **When a statement was given up**: it has a result for each attempt of its schedule, and all
of them are lock timeouts. -/
theorem exhausted_iff (h : Seen total results refused ending) :
    (∃ attempts, ending = .ok (.exhausted attempts)) ↔
      results.length = total ∧ ∀ result ∈ results, Sql.timedOut result = true := by
  cases h with
  | exhausted all locked => exact ⟨fun _ => ⟨all, locked⟩, fun _ => ⟨total, rfl⟩⟩
  | completed attempts locked =>
      refine ⟨nofun, fun ⟨_, all⟩ => ?_⟩
      exact absurd_of_mem all (List.mem_append_right _ List.mem_cons_self) rfl
  | unset failure few locked => exact ⟨nofun, fun ⟨all, _⟩ => absurd all (Nat.ne_of_lt few)⟩
  | failed failure locked other =>
      refine ⟨nofun, fun ⟨_, all⟩ => ?_⟩
      exact absurd_of_mem all (List.mem_append_right _ List.mem_cons_self) other

/-- **When a statement has failed**: its lock timeout could not be set, or it has a failure among
its results that is no lock timeout; and that is the error. -/
theorem failed_iff (h : Seen total results refused ending) (error : Error) :
    ending = .error error ↔ ∃ failure, error = .statement failure ∧
      (refused = some failure ∨ .error failure ∈ results ∧ failure.isLockTimeout = false) := by
  cases h with
  | completed attempts locked =>
      refine ⟨nofun, ?_⟩
      rintro ⟨failure, -, refused | ⟨mem, other⟩⟩
      · cases refused
      rcases List.mem_append.1 mem with mem | mem
      · exact absurd_of_mem locked mem other
      · cases List.mem_singleton.1 mem
  | exhausted all locked =>
      refine ⟨nofun, ?_⟩
      rintro ⟨failure, -, refused | ⟨mem, other⟩⟩
      · cases refused
      · exact absurd_of_mem locked mem other
  | unset failure few locked =>
      constructor
      · rintro ⟨⟩
        exact ⟨failure, rfl, .inl rfl⟩
      · rintro ⟨failure', rfl, refused | ⟨mem, other⟩⟩
        · rw [Option.some.inj refused]
        · exact absurd_of_mem locked mem other
  | failed failure locked other =>
      constructor
      · rintro ⟨⟩
        exact ⟨failure, rfl, .inr ⟨List.mem_append_right _ List.mem_cons_self, other⟩⟩
      · rintro ⟨failure', rfl, refused | ⟨mem, other'⟩⟩
        · cases refused
        rcases List.mem_append.1 mem with mem | mem
        · exact absurd_of_mem locked mem other'
        · rw [Except.error.inj (List.mem_singleton.1 mem)]

end Seen

end Ddl

end Upkeep
