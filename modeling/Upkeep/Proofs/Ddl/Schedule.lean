import Upkeep.Proofs.Ddl.Course

/-!
# Retried statements follow their schedule

How a retried statement ends is known from its attempts: each but the last has run into its lock
timeout, and the last has not, unless there is no entry of the schedule left.

## Main Definitions

* `Ends` — what becomes of a statement by its attempts.

## Main Statements

* `Retrier.Tries.ends` — the loop ends so.
* `Ends.completed_iff`, `Ends.eq_of_heedless` — when the statement has succeeded, and that it
  makes no difference whether lock timeouts could be undone.
* `run_follows_schedule` — all of it, for any world.
-/

namespace Upkeep.Ddl

/-! ### How a retried statement ends -/

/-- How a statement ends after attempts by a schedule of so many: an attempt is followed by another
one only if it ran into its lock timeout and is not the last of the schedule. -/
inductive Ends (total : Nat) (raise : Bool) : List Trial → Except Error Outcome → Prop
  /-- The statement succeeds. -/
  | completed {earlier : List Trial} {undone : Except Sql.Failure Unit}
      (few : earlier.length < total) (waited : ∀ trial ∈ earlier, trial.timedOut = true) :
      Ends total raise (earlier ++ [.made (.ok ()) undone]) (.ok (.completed (earlier.length + 1)))
  /-- The lock timeout cannot be set. -/
  | unset {earlier : List Trial} {failure : Sql.Failure}
      (few : earlier.length < total) (waited : ∀ trial ∈ earlier, trial.timedOut = true) :
      Ends total raise (earlier ++ [.unset failure]) (.error (.statement failure))
  /-- The statement fails otherwise than by a lock timeout. -/
  | failed {earlier : List Trial} {failure : Sql.Failure} {undone : Except Sql.Failure Unit}
      (few : earlier.length < total) (waited : ∀ trial ∈ earlier, trial.timedOut = true)
      (other : failure.isLockTimeout = false) :
      Ends total raise (earlier ++ [.made (.error failure) undone]) (.error (.statement failure))
  /-- All attempts of the schedule run into a lock timeout. -/
  | exhausted {earlier : List Trial} {failure : Sql.Failure} {undone : Except Sql.Failure Unit}
      (all : earlier.length + 1 = total) (waited : ∀ trial ∈ earlier, trial.timedOut = true)
      (lock : failure.isLockTimeout = true) :
      Ends total raise (earlier ++ [.made (.error failure) undone])
        (if raise then .error (.retriesExhausted total failure) else .ok (.exhausted total))

namespace Trial

theorem timedOut_of_verdict {trial : Trial} {failure : Sql.Failure}
    (h : trial.verdict = .ok (some failure)) : trial.timedOut = true := by
  match trial with
  | .unset _ => cases h
  | .made (.ok ()) _ => cases h
  | .made (.error failure) _ =>
      by_cases hlock : failure.isLockTimeout = true
      · exact hlock
      · rw [verdict, if_neg hlock] at h
        cases h

/-- Whether an attempt ran into its lock timeout has nothing to do with undoing it. -/
theorem timedOut_of_heedless_eq {trial trial' : Trial} (h : trial.heedless = trial'.heedless) :
    trial.timedOut = trial'.timedOut := by
  match trial, trial' with
  | .unset _, .unset _ => rfl
  | .unset _, .made _ _ => cases h
  | .made _ _, .unset _ => cases h
  | .made result _, .made _ _ =>
      obtain rfl := Except.ok.inj h
      cases result <;> rfl

end Trial

/-- The last attempt of all decides, and those before it ran into their lock timeouts. -/
theorem Retrier.Tries.exists_last {number : Nat} {entries : List Attempt} {trials : List Trial}
    {result : Except Error (Except Sql.Failure Nat)} (h : Tries number entries trials result) :
    ∃ earlier last, trials = earlier ++ [last] ∧ earlier.length < entries.length ∧
      (∀ trial ∈ earlier, trial.timedOut = true) ∧
        match last.verdict with
        | .error error => result = .error error
        | .ok none => result = .ok (.ok (number + earlier.length))
        | .ok (some failure) =>
            result = .ok (.error failure) ∧ earlier.length + 1 = entries.length := by
  induction h with
  | @finished number entry entries trial h =>
      refine ⟨[], trial, rfl, Nat.zero_lt_succ _, fun _ hm => absurd hm List.not_mem_nil, ?_⟩
      rw [h]
      rfl
  | @failed number entry entries trial error h =>
      refine ⟨[], trial, rfl, Nat.zero_lt_succ _, fun _ hm => absurd hm List.not_mem_nil, ?_⟩
      rw [h]
  | @exhausted number entry trial failure h =>
      refine ⟨[], trial, rfl, Nat.zero_lt_succ _, fun _ hm => absurd hm List.not_mem_nil, ?_⟩
      rw [h]
      exact ⟨rfl, rfl⟩
  | @again number entry next entries trial trials failure result h others ih =>
      obtain ⟨earlier, last, rfl, hfew, hwaited, hlast⟩ := ih
      refine ⟨trial :: earlier, last, rfl, Nat.succ_lt_succ hfew,
        List.forall_mem_cons.2 ⟨Trial.timedOut_of_verdict h, hwaited⟩, ?_⟩
      split at hlast
      · exact hlast
      · rw [hlast, List.length_cons, Nat.add_right_comm, Nat.add_assoc]
      · exact ⟨hlast.1, congrArg Nat.succ hlast.2⟩

theorem Retrier.Tries.ends {timing : Timing} {trials : List Trial} {raise : Bool}
    {result : Except Error (Except Sql.Failure Nat)} (h : Tries 1 timing.entries trials result) :
    Ends timing.attempts raise trials (conclusion timing.attempts raise result) := by
  obtain ⟨earlier, last, rfl, hfew, hwaited, hlast⟩ := h.exists_last
  match last with
  | .unset failure =>
      rw [show result = .error (.statement failure) from hlast]
      exact .unset hfew hwaited
  | .made (.ok ()) undone =>
      rw [show result = .ok (.ok (1 + earlier.length)) from hlast, Nat.add_comm]
      exact .completed hfew hwaited
  | .made (.error failure) undone =>
      rw [Trial.verdict] at hlast
      cases hlock : failure.isLockTimeout with
      | true =>
          rw [hlock, if_pos rfl] at hlast
          rw [hlast.1]
          exact .exhausted hlast.2 hwaited hlock
      | false =>
          rw [hlock, if_neg Bool.false_ne_true] at hlast
          rw [show result = .error (.statement failure) from hlast]
          exact .failed hfew hwaited hlock

namespace Ends

variable {total : Nat} {raise : Bool} {trials trials' : List Trial}
  {result result' : Except Error Outcome}

/-- What a statement comes to by its last attempt, of which it does not matter whether the lock
timeout was undone. -/
def outcomeOf (total : Nat) (raise : Bool) (number : Nat) :
    Except Sql.Failure (Except Sql.Failure Unit) → Except Error Outcome
  | .error failure => .error (.statement failure)
  | .ok (.ok ()) => .ok (.completed number)
  | .ok (.error failure) =>
      if failure.isLockTimeout then
        if raise then .error (.retriesExhausted total failure) else .ok (.exhausted total)
      else .error (.statement failure)

theorem exists_last (h : Ends total raise trials result) :
    ∃ earlier last, trials = earlier ++ [last] ∧ earlier.length < total ∧
      (∀ trial ∈ earlier, trial.timedOut = true) ∧
      (last.timedOut = true → earlier.length + 1 = total) ∧
      result = outcomeOf total raise (earlier.length + 1) last.heedless := by
  cases h with
  | completed few waited => exact ⟨_, _, rfl, few, waited, nofun, rfl⟩
  | unset few waited => exact ⟨_, _, rfl, few, waited, nofun, rfl⟩
  | failed few waited other =>
      refine ⟨_, _, rfl, few, waited, fun lock => absurd (other.symm.trans lock) nofun, ?_⟩
      rw [Trial.heedless, outcomeOf, if_neg (Bool.not_eq_true _ ▸ other)]
  | exhausted all waited lock =>
      refine ⟨_, _, rfl, all ▸ Nat.lt_succ_self _, waited, fun _ => all, ?_⟩
      rw [Trial.heedless, outcomeOf, if_pos lock]

/-- The statement succeeds on some attempt exactly if all attempts before that one ran into their
lock timeouts and then the statement succeeded. -/
theorem completed_iff (h : Ends total raise trials result) (k : Nat) :
    result = .ok (.completed k) ↔
      ∃ earlier undone, trials = earlier ++ [.made (.ok ()) undone] ∧ earlier.length + 1 = k ∧
        ∀ trial ∈ earlier, trial.timedOut = true := by
  obtain ⟨earlier, last, rfl, -, hwaited, -, rfl⟩ := h.exists_last
  constructor
  · intro hresult
    match last with
    | .unset failure => cases hresult
    | .made (.ok ()) undone =>
        exact ⟨earlier, undone, rfl, Outcome.completed.inj (Except.ok.inj hresult), hwaited⟩
    | .made (.error failure) undone =>
        rw [Trial.heedless, outcomeOf] at hresult
        split at hresult
        · split at hresult <;> cases hresult
        · cases hresult
  · rintro ⟨others, undone, heq, rfl, -⟩
    obtain ⟨rfl, hlast⟩ := List.append_inj' heq rfl
    obtain rfl := List.singleton_inj.1 hlast
    rfl

/-- **Whether lock timeouts can be undone makes no difference**: if two statements under the same
schedule are answered alike but for that, as long as the first of them goes on, then the second
one ends where the first one does, and in the same way. -/
theorem eq_of_heedless (h : Ends total raise trials result)
    (h' : Ends total raise trials' result')
    (hbegins : trials.map Trial.heedless <+: trials'.map Trial.heedless) :
    trials.map Trial.heedless = trials'.map Trial.heedless ∧ result = result' := by
  obtain ⟨earlier, last, rfl, -, -, hall, rfl⟩ := h.exists_last
  obtain ⟨earlier', last', rfl, hfew', hwaited', -, rfl⟩ := h'.exists_last
  obtain ⟨rest, hrest⟩ := hbegins
  rcases List.eq_nil_or_concat rest with rfl | ⟨rest, final, rfl⟩
  · rw [List.append_nil] at hrest
    refine ⟨hrest, ?_⟩
    simp only [List.map_append, List.map_cons, List.map_nil] at hrest
    obtain ⟨hearlier, hlast⟩ := List.append_inj' hrest rfl
    have hlength := congrArg List.length hearlier
    rw [List.length_map, List.length_map] at hlength
    rw [hlength, List.singleton_inj.1 hlast]
  · -- The last attempt of the first statement is no last one of the second, so it ran into its
    -- lock timeout; but then the schedule was at its end.
    rw [List.concat_eq_append, ← List.append_assoc, List.map_append, List.map_append] at hrest
    obtain ⟨hearlier, -⟩ := List.append_inj' hrest rfl
    have hlast : last.heedless ∈ earlier'.map Trial.heedless :=
      hearlier ▸ List.mem_append_left _ (List.mem_append_right _ List.mem_cons_self)
    obtain ⟨trial, hm, heq⟩ := List.mem_map.1 hlast
    have htotal := hall ((Trial.timedOut_of_heedless_eq heq).symm.trans (hwaited' trial hm))
    have hlength := congrArg List.length hearlier
    simp only [List.length_append, List.length_map, List.length_singleton] at hlength
    omega

end Ends

/-! ### The course of a retried statement -/

/-- **A retried statement follows its schedule**, whatever it is answered.  Each attempt sets the
lock timeout of its entry, executes the statement and undoes the timeout, unless it could not be
set, and between two attempts there is the sleep of the former's entry and no other.  How it ends
is known from the attempts, of which those that ran into their lock timeouts are counted, and these
are the ones that failed in the state `55P03`; whether the timeouts could be undone makes no
difference. -/
theorem run_follows_schedule (retrier : Retrier) (statement : String) (timing : Timing)
    (raise : Bool) :
    (∀ failure : Sql.Failure, failure.isLockTimeout = true ↔ failure.sqlstate = some "55P03") ∧
    (∀ {σ : Type} (answer : (r : Service.Request) → σ → Service.Answer r × σ)
        (elapse : Duration → σ → σ) (s : σ),
      ∃ trials result,
        ((retrier.run statement timing raise).toJob.run answer elapse s).1 = .ok result ∧
        Ends timing.attempts raise trials result ∧
        ((retrier.run statement timing raise).toJob.diary answer elapse s).steps =
          retrier.stepsOf statement timing.entries trials ∧
        ((retrier.run statement timing raise).toJob.transcript answer elapse s).counted
          retrier.account .lockRetries = UInt64.ofNat (trials.countP Trial.timedOut)) ∧
    ∀ trials result, Ends timing.attempts raise trials result →
      trials.length ≤ timing.attempts ∧
      (∀ k, result = .ok (.completed k) ↔
        ∃ earlier undone, trials = earlier ++ [.made (.ok ()) undone] ∧ earlier.length + 1 = k ∧
          ∀ trial ∈ earlier, trial.timedOut = true) ∧
      ∀ trials' result', Ends timing.attempts raise trials' result' →
        trials.map Trial.heedless <+: trials'.map Trial.heedless →
          trials.map Trial.heedless = trials'.map Trial.heedless ∧ result = result' := by
  refine ⟨fun _ => Sql.Failure.isLockTimeout_iff, fun answer elapse s => ?_,
    fun trials result hends => ⟨?_, hends.completed_iff,
      fun trials' result' => hends.eq_of_heedless⟩⟩
  · obtain ⟨trials, result, htries, hrun, hdiary⟩ :=
      retrier.diary_run statement timing raise answer elapse s
    refine ⟨trials, _, hrun, htries.ends, ?_, ?_⟩
    · rw [hdiary, Diary.steps_append, Retrier.steps_diaryOf, Retrier.steps_parting,
        List.append_nil]
    · rw [← Job.exchanges_diary, hdiary]
      refine (Retrier.retries_append _ _ _).trans ?_
      rw [Retrier.retries_diaryOf htries, Retrier.retries_parting, UInt64.add_zero]
  · obtain ⟨earlier, last, rfl, hfew, -⟩ := hends.exists_last
    rw [List.length_append]
    exact hfew

end Upkeep.Ddl
