import Upkeep.Proofs.Ddl.Executions
import Upkeep.Proofs.Lease.Remains
import Upkeep.Proofs.Reindex.Attempt
import Upkeep.Proofs.Text.Phrase

/-!
# The removal of one index

An index is dropped under its lease by a retried statement, so the removal may end in several ways:
the lease is not to be had, the statement succeeds, is given up or fails.  Whoever sees which lease
was asked for and which statements were executed, with what they were answered, knows which of these
it was, and what was counted.

## Main Definitions

* `Removal` — an index, what was done about it, and what became of it.
* `Coordinator.Removes` — the ways in which a coordinator drops an index.
* `Removal.Accounts` — what becomes of an index by what is done about it.

## Main Statements

* `Index.isLeftover_iff` — leftovers by their names.
* `Coordinator.keeps_drop_writing` — a coordinator has no other ways.
* `Coordinator.Removes.accounts` — each of them accounts for the index.
-/

namespace Upkeep

/-! ### Leftovers -/

/-- The suffix begins with a character that stands neither later in it nor in digits. -/
theorem Index.underscore_not_mem {digits : List Char} (numeric : digits.all Char.isDigit = true) :
    '_' ∉ "ccnew".toList ++ digits := by
  intro underscore
  rcases List.mem_append.1 underscore with mem | mem
  · exact absurd mem (by decide)
  · exact absurd (List.all_eq_true.1 numeric _ mem) (by decide)

/-- **Which indexes are leftovers**: those whose name has the suffix of building in it and then
nothing but digits. -/
theorem Index.isLeftover_iff (index : Index) :
    index.isLeftover = true ↔ ∃ stem digits : List Char,
      index.name.toList = stem ++ (Index.buildSuffix ++ digits) ∧
        digits.all Char.isDigit = true := by
  unfold Index.isLeftover
  constructor
  · intro h
    split at h
    · next rest found =>
        obtain ⟨stem, name⟩ := Text.exists_of_afterLast? found
        exact ⟨stem, rest, name, h⟩
    · cases h
  · rintro ⟨stem, digits, name, numeric⟩
    have found : Text.afterLast? Index.buildSuffix (stem ++ (Index.buildSuffix ++ digits)) =
        some digits := Text.afterLast?_of_not_mem (underscore_not_mem numeric) stem
    rw [name, found]
    exact numeric

/-! ### Removals -/

/-- An index with what was done about it and what became of it. -/
structure Removal where
  index : Index
  diary : Diary Service
  result : Except Error Dropped

/-- What an end of its statement is to an index. -/
def Dropped.ofOutcome : Ddl.Outcome → Dropped
  | .completed _ => .dropped
  | .exhausted _ => .abandoned

/-- What is counted of a result. -/
def Dropped.meter : Dropped → Meter
  | dropped => .indexesDropped
  | abandoned => .indexesAbandoned
  | skipped => .leaseSkipped

namespace Coordinator

open Ddl (Outcome Trial)
open Ddl.Retrier (Tries conclusion diaryOf parting)

variable (coordinator : Coordinator) (index : Index)

/-- The lease for work on an index is asked for. -/
def asked (answer : Except Error (Option Lease.Token)) : Doing Service :=
  .obtained (coordinator.leaseKey index) coordinator.settings.lease answer

/-- The statement that drops an index is executed, as often as it takes. -/
def attempted (trials : List Trial) (result : Except Error (Except Sql.Failure Nat)) :
    Diary Service :=
  coordinator.retrier.diaryOf coordinator.settings.timing.attempts index.dropStatement.text 1
      coordinator.settings.timing.entries trials ++
    parting coordinator.settings.timing.attempts index.dropStatement.text false result

/-- What is counted and said of the end of the statement. -/
def settled : Except Error Outcome → Diary Service
  | .ok (.completed attempts) =>
      [.counted coordinator.account .indexesDropped, .logged (droppedEvent index attempts)]
  | .ok (.exhausted attempts) =>
      [.counted coordinator.account .indexesAbandoned, .logged (dropAbandonedEvent index attempts)]
  | .error _ => []

/-- The removal of an index under its lease.  The lease is given back before anything is said. -/
def removal (token : Lease.Token) (released : Except Error Bool) (trials : List Trial)
    (result : Except Error (Except Sql.Failure Nat)) : Removal where
  index
  diary :=
    [coordinator.asked index (.ok (some token)),
        .logged (Lease.obtainedEvent ⟨coordinator.leaseKey index, token⟩)] ++
      (coordinator.attempted index trials result ++
        ((returned (coordinator.leaseKey index) token released).map .asked ++
          coordinator.settled index
            (conclusion coordinator.settings.timing.attempts false result)))
  result := (conclusion coordinator.settings.timing.attempts false result).map .ofOutcome

/-- **The ways in which an index is dropped.** -/
inductive Removes : Removal → Prop
  /-- The store of leases cannot be asked. -/
  | unavailable (index : Index) (error : Error) :
      Removes ⟨index, [coordinator.asked index (.error error)], .error error⟩
  /-- Another worker has the lease. -/
  | held (index : Index) :
      Removes
        { index
          diary :=
            [coordinator.asked index (.ok none),
              .logged (Lease.heldEvent (coordinator.leaseKey index)),
              .counted coordinator.account .leaseSkipped,
              .logged (dropSkippedEvent index (coordinator.leaseKey index))]
          result := .ok .skipped }
  /-- The statement is tried under the lease. -/
  | tried (index : Index) (token : Lease.Token) (released : Except Error Bool)
      {trials : List Trial} {result : Except Error (Except Sql.Failure Nat)}
      (tries : Tries 1 coordinator.settings.timing.entries trials result) :
      Removes (coordinator.removal index token released trials result)

section Keeps

variable {coordinator} {index} {d : Diary Service}

private theorem keeps_release_writing {key : String} {token : Lease.Token}
    {ok : Bool → Diary Service → Prop}
    (h : ∀ (value : Bool) (released : Except Error Bool),
      ok value (d ++ (returned key token released).map .asked)) :
    (Lease.Guard.release ⟨key, token⟩).Keeps (.writing Service) (fun _ _ => True) ok
      (fun _ _ => False) d := by
  refine Lease.Guard.keeps_release_iff.2 (keeps_ask_writing fun released => ?_)
  match released with
  | .ok true => exact h true (.ok true)
  | .ok false =>
      refine keeps_ask_writing fun _ => ?_
      rw [List.append_assoc]
      exact h false (.ok false)
  | .error error =>
      refine keeps_ask_writing fun _ => ?_
      rw [List.append_assoc]
      exact h false (.error error)

private theorem keeps_report_writing {account : Account} {meter : Meter} {event : Event}
    {what : Dropped} {ok : Dropped → Diary Service → Prop} {failed : Error → Diary Service → Prop}
    (h : ok what (d ++ [.counted account meter, .logged event])) :
    (do
      Service.count account meter
      Service.log event
      return what : Task Dropped).Keeps (.writing Service) (fun _ _ => True) ok failed
        (fun _ _ => False) d := by
  refine Task.keeps_bind.2 (Task.keeps_liftM.2 (keeps_ask_writing fun _ => ?_))
  refine Task.keeps_bind.2 (Task.keeps_liftM.2 (keeps_ask_writing fun _ => ?_))
  rw [List.append_assoc]
  exact h

/-- **A coordinator drops an index in one of the ways.** -/
theorem keeps_drop_writing :
    (coordinator.drop index).Keeps (.writing Service) (fun _ _ => True)
      (fun what after => ∃ more, after = d ++ more ∧ coordinator.Removes ⟨index, more, .ok what⟩)
      (fun error after => ∃ more, after = d ++ more ∧
        coordinator.Removes ⟨index, more, .error error⟩) (fun _ _ => False) d := by
  refine Task.keeps_bind.2 (Lease.keeps_holding_iff.2 (keeps_ask_writing fun obtained => ?_))
  match obtained with
  | .error error => exact ⟨_, rfl, .unavailable index error⟩
  | .ok none =>
      refine keeps_ask_writing fun _ => keeps_report_writing ⟨_, ?_, .held index⟩
      rw [List.append_assoc, List.append_assoc]
      rfl
  | .ok (some token) =>
      refine Lease.Guard.keeps_protect_iff.2 (Service.keeps_log.2
        ⟨trivial, fun _ _ => ?_, False.elim⟩)
      have work : (coordinator.retrier.run index.dropStatement.text
          coordinator.settings.timing false).Keeps _ _ _ _ _ _ := Ddl.Retrier.keeps_run_writing
      have behind := work.behind (List.append_nil (d ++ [coordinator.asked index (.ok (some token))]
        ++ [.logged (Lease.obtainedEvent ⟨coordinator.leaseKey index, token⟩)])).symm
      refine Job.Keeps.mono behind (fun _ _ hr => hr) ?_ fun _ _ => False.elim
      rintro ending after ⟨more, rfl, worked⟩
      have tried : ∃ trials result, Tries 1 coordinator.settings.timing.entries trials result ∧
          conclusion coordinator.settings.timing.attempts false result = ending ∧
            more = coordinator.attempted index trials result := by
        cases ending <;> exact worked
      obtain ⟨trials, result, tries, concluded, rfl⟩ := tried
      refine keeps_release_writing fun _ released => ?_
      have removes := Removes.tried index token released tries
      rw [removal, concluded] at removes
      match ending with
      | .error error =>
          refine ⟨_, ?_, removes⟩
          simp only [settled, List.append_assoc, List.append_nil]
          rfl
      | .ok (.completed attempts) =>
          refine Task.keeps_bind.2 (keeps_report_writing ⟨_, ?_, removes⟩)
          simp only [settled, List.append_assoc]
          rfl
      | .ok (.exhausted attempts) =>
          refine Task.keeps_bind.2 (keeps_report_writing ⟨_, ?_, removes⟩)
          simp only [settled, List.append_assoc]
          rfl

end Keeps

/-! ### What is seen of a removal -/

section Parts

variable {coordinator} {index} {trials : List Trial}
  {result : Except Error (Except Sql.Failure Nat)}

theorem asked_inj {answer answer' : Except Error (Option Lease.Token)} :
    coordinator.asked index answer = coordinator.asked index answer' ↔ answer = answer' := by
  simp [asked, Doing.obtained]

theorem executions_attempted :
    (coordinator.attempted index trials result).executions =
      (coordinator.retrier.stepsOf index.dropStatement.text coordinator.settings.timing.entries
        trials).executions := by
  rw [attempted, ← Ddl.Retrier.executions_steps, Diary.steps_append, Ddl.Retrier.steps_diaryOf,
    Ddl.Retrier.steps_parting, List.append_nil]

theorem executions_returned (key : String) (token : Lease.Token)
    (released : Except Error Bool) :
    Diary.executions ((returned key token released).map .asked) = [] := by
  rcases released with error | _ | _ <;> rfl

theorem executions_settled (ending : Except Error Outcome) :
    (coordinator.settled index ending).executions = [] := by
  rcases ending with error | attempts | attempts <;> rfl

/-- What is executed under the lease. -/
theorem executions_removal (token : Lease.Token) (released : Except Error Bool) :
    (coordinator.removal index token released trials result).diary.executions =
      (coordinator.retrier.stepsOf index.dropStatement.text coordinator.settings.timing.entries
        trials).executions := by
  simp only [removal, Diary.executions_append, executions_attempted, executions_returned,
    executions_settled, List.append_nil]
  rfl

theorem counted_attempted (tries : Tries 1 coordinator.settings.timing.entries trials result)
    (account : Account) (what : Dropped) :
    (coordinator.attempted index trials result).counted account what.meter = 0 := by
  have other : what.meter ≠ .lockRetries := by cases what <;> nofun
  rw [attempted, Diary.counted_append, Ddl.Retrier.counted_diaryOf other tries,
    Ddl.Retrier.counted_parting]
  rfl

theorem counted_returned (key : String) (token : Lease.Token) (released : Except Error Bool)
    (account : Account) (meter : Meter) :
    Diary.counted account meter ((returned key token released).map .asked) = 0 := by
  rcases released with error | _ | _ <;> rfl

/-- The end of the statement is counted as what it is to the index. -/
theorem counted_settled (ending : Except Error Outcome) (what : Dropped) :
    (coordinator.settled index ending).counted coordinator.account what.meter =
      if ending.map Dropped.ofOutcome = .ok what then 1 else 0 := by
  rcases ending with error | attempts | attempts <;> cases what <;>
    simp [settled, Diary.counted, Diary.exchanges, Doing.exchange?, Doing.counted, Doing.logged,
      Transcript.counted, Exchange.counted, Dropped.meter, Except.map, Dropped.ofOutcome]

theorem counted_removal (tries : Tries 1 coordinator.settings.timing.entries trials result)
    (token : Lease.Token) (released : Except Error Bool) (what : Dropped) :
    (coordinator.removal index token released trials result).diary.counted coordinator.account
        what.meter =
      if (coordinator.removal index token released trials result).result = .ok what
        then 1 else 0 := by
  have opened : Diary.counted coordinator.account what.meter
      [coordinator.asked index (.ok (some token)),
        .logged (Lease.obtainedEvent ⟨coordinator.leaseKey index, token⟩)] = 0 := rfl
  refine (Diary.counted_append _ _ _ _).trans ?_
  rw [opened, Diary.counted_append, Diary.counted_append, counted_attempted tries,
    counted_returned, UInt64.zero_add, UInt64.zero_add, UInt64.zero_add]
  exact counted_settled _ what

end Parts

end Coordinator

/-! ### Accounts -/

/-- The results of the statement that drops the index. -/
def Removal.drops (removal : Removal) : List (Except Sql.Failure Unit) :=
  removal.diary.resultsOf removal.index.dropStatement.text

/-- What becomes of an index by the answer to the request for its lease and by the statements that
are executed, and that it is counted. -/
structure Removal.Accounts (coordinator : Coordinator) (removal : Removal) : Prop where
  /-- First the lease is asked for. -/
  asks : ∃ answer, removal.diary.head? = some (coordinator.asked removal.index answer)
  /-- It was dropped if an attempt succeeded after lock timeouts alone. -/
  dropped_iff : removal.result = .ok .dropped ↔
    ∃ waited, removal.drops = waited ++ [.ok ()] ∧ ∀ result ∈ waited, Sql.timedOut result = true
  /-- It was abandoned if there was an attempt for each entry of the schedule, and all of them ran
  into lock timeouts. -/
  abandoned_iff : removal.result = .ok .abandoned ↔
    removal.drops.length = coordinator.settings.timing.attempts ∧
      ∀ result ∈ removal.drops, Sql.timedOut result = true
  /-- It was skipped if somebody else had the lease. -/
  skipped_iff : removal.result = .ok .skipped ↔
    removal.diary.head? = some (coordinator.asked removal.index (.ok none))
  /-- If it was skipped then nothing was executed. -/
  untouched : removal.result = .ok .skipped → removal.diary.executions = []
  /-- There is an error if the lease could not be asked for, if a lock timeout could not be set, or
  if the statement failed otherwise than by a lock timeout. -/
  failed_iff : ∀ error, removal.result = .error error ↔
    removal.diary.head? = some (coordinator.asked removal.index (.error error)) ∨
      ∃ failure, error = .statement failure ∧
        (Ddl.Retrier.Refused coordinator.settings.timing.entries removal.diary.executions failure ∨
          .error failure ∈ removal.drops ∧ failure.isLockTimeout = false)
  /-- Nothing else is executed than this one statement with its lock timeouts. -/
  statements : ∀ execution ∈ removal.diary.executions,
    execution.1 = removal.index.dropStatement.text ∨
      execution.1 = Sql.Statement.resetLockTimeout.text ∨
        ∃ entry ∈ coordinator.settings.timing.entries,
          execution.1 = (Sql.Statement.setLockTimeout entry.lockTimeout.millis).text
  /-- What became of it is counted once, and nothing else is. -/
  counts : ∀ what : Dropped, removal.diary.counted coordinator.account what.meter =
    if removal.result = .ok what then 1 else 0

/-- If nothing was executed then the index was neither dropped nor abandoned, and nothing has
failed that is executed. -/
theorem Removal.not_tried {removal : Removal} (h : removal.diary.executions = []) :
    (∀ waited, removal.drops ≠ waited ++ [.ok ()]) ∧
      (∀ timing : Ddl.Timing, removal.drops.length ≠ timing.attempts) ∧
      (∀ entries failure, ¬Ddl.Retrier.Refused entries removal.diary.executions failure) ∧
        ∀ result, result ∉ removal.drops := by
  have none : removal.drops = [] := by rw [drops, Diary.resultsOf, h]; rfl
  refine ⟨fun waited same => ?_, fun timing same => ?_, fun entries failure => ?_, ?_⟩
  · cases List.append_eq_nil_iff.1 (same.symm.trans none) with | intro _ absurd => cases absurd
  · rw [none] at same
    exact absurd timing.attempts_pos (same ▸ Nat.lt_irrefl _)
  · rintro ⟨entry, -, mem⟩
    rw [h] at mem
    cases mem
  · intro result mem
    rw [none] at mem
    cases mem

namespace Coordinator

open Ddl (Outcome)

variable {coordinator : Coordinator}

/-- An index whose lease was not to be had. -/
theorem accounts_of_not_tried {removal : Removal} {answer : Except Error (Option Lease.Token)}
    (asks : removal.diary.head? = some (coordinator.asked removal.index answer))
    (idle : removal.diary.executions = [])
    (tells : ∀ what, removal.result = .ok what ↔ answer = .ok none ∧ what = .skipped)
    (fails : ∀ error, removal.result = .error error ↔ answer = .error error)
    (counts : ∀ what : Dropped, removal.diary.counted coordinator.account what.meter =
      if removal.result = .ok what then 1 else 0) : removal.Accounts coordinator where
  asks := ⟨answer, asks⟩
  dropped_iff := by
    refine ⟨fun done => (nomatch ((tells _).1 done).2), ?_⟩
    rintro ⟨waited, same, -⟩
    exact absurd same ((Removal.not_tried idle).1 waited)
  abandoned_iff := by
    refine ⟨fun done => (nomatch ((tells _).1 done).2), ?_⟩
    rintro ⟨same, -⟩
    exact absurd same ((Removal.not_tried idle).2.1 _)
  skipped_iff := by
    rw [tells, asks, Option.some_inj, asked_inj]
    exact and_iff_left rfl
  untouched _ := idle
  failed_iff error := by
    rw [fails, asks, Option.some_inj, asked_inj]
    refine ⟨.inl, ?_⟩
    rintro (same | ⟨failure, -, refused | ⟨mem, -⟩⟩)
    · exact same
    · exact absurd refused ((Removal.not_tried idle).2.2.1 _ _)
    · exact absurd mem ((Removal.not_tried idle).2.2.2 _)
  statements := by
    rw [idle]
    exact nofun
  counts := counts

/-- What the end of the statement is to the index. -/
theorem map_ofOutcome_eq_iff (ending : Except Error Outcome) :
    (ending.map Dropped.ofOutcome = .ok .dropped ↔ ∃ attempts, ending = .ok (.completed attempts)) ∧
    (ending.map Dropped.ofOutcome = .ok .abandoned ↔
      ∃ attempts, ending = .ok (.exhausted attempts)) ∧
    ending.map Dropped.ofOutcome ≠ .ok .skipped ∧
    ∀ error, ending.map Dropped.ofOutcome = .error error ↔ ending = .error error := by
  rcases ending with error | attempts | attempts <;>
    simp [Except.map, Dropped.ofOutcome]

/-- **A removal accounts for its index.** -/
theorem Removes.accounts {removal : Removal} (h : coordinator.Removes removal) :
    removal.Accounts coordinator := by
  cases h with
  | unavailable index error =>
      refine accounts_of_not_tried rfl rfl (fun what => ?_) (fun error' => ?_) fun what => ?_
      · exact ⟨nofun, fun ⟨same, _⟩ => nomatch same⟩
      · simp
      · rfl
  | held index =>
      refine accounts_of_not_tried rfl rfl (fun what => ?_) (fun error => ?_) fun what => ?_
      · simp [eq_comm]
      · exact ⟨nofun, nofun⟩
      · cases what <;> simp [Diary.counted, Diary.exchanges, Doing.exchange?, Doing.counted,
          Doing.logged, Transcript.counted, Exchange.counted, Dropped.meter, asked, Doing.obtained]
  | @tried index token released trials result tries =>
      have ordinary : Sql.IsOrdinary index.dropStatement.text := Sql.isOrdinary_dropIndex _ _
      obtain ⟨refused, seen, reason⟩ := tries.seen coordinator.retrier ordinary
      set removal := coordinator.removal index token released trials result with hremoval
      have executions : removal.diary.executions = _ := executions_removal token released
      have drops : removal.drops = (coordinator.retrier.stepsOf index.dropStatement.text
          coordinator.settings.timing.entries trials).resultsOf index.dropStatement.text := by
        rw [Removal.drops, Diary.resultsOf, executions]
        rfl
      have asks : removal.diary.head? =
          some (coordinator.asked removal.index (.ok (some token))) := rfl
      obtain ⟨dropped, abandoned, skipped, failed⟩ := map_ofOutcome_eq_iff
        (Ddl.Retrier.conclusion coordinator.settings.timing.attempts false result)
      rw [← drops] at seen
      rw [← executions] at reason
      exact
        { asks := ⟨_, asks⟩
          dropped_iff := dropped.trans seen.completed_iff
          abandoned_iff := abandoned.trans seen.exhausted_iff
          skipped_iff := by
            rw [asks, Option.some_inj, asked_inj]
            exact iff_of_false skipped (by simp)
          untouched := fun done => absurd done skipped
          failed_iff := by
            intro error
            rw [asks, Option.some_inj, asked_inj]
            refine (failed error).trans ((seen.failed_iff error).trans ?_)
            simp only [reason, reduceCtorEq, false_or]
          statements := by
            rw [executions]
            exact fun _ mem => Ddl.Retrier.mem_executions_stepsOf mem
          counts := counted_removal tries token released }

end Coordinator

end Upkeep
