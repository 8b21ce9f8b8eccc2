import Upkeep.Proofs.Lease.Eviction

/-!
# When a lease counts as given back

Whoever gives a lease back is told whether it was still there.  The store looks only at
the token, and not at the clock, so what it tells of a lease that has ended depends on
what else was done to the store since.

## Main Definitions

* `Operation.Removes` — an operation removes the entry of a lease.
* `Stays` — a lease was granted in a history, and nothing has removed its entry since.

## Main Statements

* `mem_after_iff` — the entries after a history are the leases that stay.
* **`release_iff`** — a lease counts as given back if and only if its token has the key,
  or had it until the lease ended and nothing has removed the entry since.
-/

namespace Upkeep.Lease

open Simulation (World)

/-- Whether an operation at an instant removes the entry of a lease: any attempt to obtain
a lease removes all that have ended; the other two look at one key only. -/
def Operation.Removes (now : Duration) (entry : Entry) : Operation → Prop
  | .obtain _ _ _ => entry.expires ≤ now
  | .release key token => entry.key = key ∧ (entry.token = token ∨ entry.expires ≤ now)
  | .holder key => entry.key = key ∧ entry.expires ≤ now
  | .activeCount => False
  | .pass _ => False

/-- A lease was granted in a history, and nothing has removed its entry since. -/
inductive Stays : List Operation → Entry → Prop where
  | granted (history : List Operation) (key : String) (ttl : Duration) (token : Token) :
      (lazily.obtain (lazily.after history).now key ttl token (lazily.after history).leases).1 =
          true →
        Stays (history ++ [.obtain key ttl token]) ⟨key, token, (lazily.after history).now + ttl⟩
  | kept (history : List Operation) (op : Operation) (entry : Entry) :
      Stays history entry → ¬op.Removes (lazily.after history).now entry →
        Stays (history ++ [op]) entry

/-- The entries after one operation. -/
theorem mem_step_iff {state : Dated Store} (one : state.leases.OneEach) {op : Operation}
    {entry : Entry} :
    entry ∈ (lazily.step state op).leases.entries ↔
      (entry ∈ state.leases.entries ∧ ¬op.Removes state.now entry) ∨
        ∃ key ttl token, op = .obtain key ttl token ∧
          (lazily.obtain state.now key ttl token state.leases).1 = true ∧
            entry = ⟨key, token, state.now + ttl⟩ := by
  cases op with
  | obtain key ttl token =>
      refine Store.mem_obtain.trans (or_congr ?_ ?_)
      · rw [Entry.isLive_eq_true_iff, ← not_le]
        rfl
      · constructor
        · exact fun granted => ⟨key, ttl, token, rfl, granted⟩
        · rintro ⟨_, _, _, ⟨⟩, granted⟩
          exact granted
  | release key token =>
      refine (Store.mem_release one).trans ?_
      simp only [Entry.isLive_eq_true_iff, Operation.Removes, reduceCtorEq, false_and,
        exists_const, or_false, not_and, not_or, not_le, ne_eq]
  | holder key =>
      refine Store.mem_evictKey.trans ?_
      simp only [Entry.isLive_eq_true_iff, Operation.Removes, reduceCtorEq, false_and,
        exists_const, or_false, not_and, not_le]
  | activeCount => simp [Operation.Removes, Keeper.step]
  | pass length => simp [Operation.Removes, Keeper.step, lazily]

/-- **The entries after a history are the leases that stay.** -/
theorem mem_after_iff {history : List Operation} {entry : Entry} :
    entry ∈ (lazily.after history).leases.entries ↔ Stays history entry := by
  constructor
  · intro mem
    induction history using List.reverseRecOn with
    | nil => cases mem
    | append_singleton history op ih =>
        rw [Keeper.after_concat, mem_step_iff (mirrors_after history).2.oneEach] at mem
        rcases mem with ⟨mem, kept⟩ | ⟨key, ttl, token, rfl, granted, rfl⟩
        · exact .kept _ _ _ (ih mem) kept
        · exact .granted _ _ _ _ granted
  · intro stays
    induction stays with
    | granted history key ttl token granted =>
        rw [Keeper.after_concat, mem_step_iff (mirrors_after history).2.oneEach]
        exact .inr ⟨key, ttl, token, rfl, granted, rfl⟩
    | kept history op entry _ kept mem =>
        rw [Keeper.after_concat, mem_step_iff (mirrors_after history).2.oneEach]
        exact .inl ⟨mem, kept⟩

/-- A guard says what the store answers, and no if the store cannot be reached. -/
theorem Guard.run_release {σ : Type} (answer : (r : Service.Request) → σ → Service.Answer r × σ)
    (elapse : Duration → σ → σ) (guard : Guard) (state : σ) :
    (guard.release.run answer elapse state).1 =
      .ok (match (answer (.releaseLease guard.key guard.token) state).1 with
        | .ok released => released
        | .error _ => false) := by
  simp only [Guard.release, Service.ask, Service.log, Job.request, Job.bind_eq, Job.pure_eq,
    Job.ask_bind, Job.done_bind, Job.run_ask]
  split <;> simp_all

section Release

variable {history : List Operation} {key : String} {token other : Token}

/-- A token has the key if and only if it was granted a lease that stays and goes on. -/
theorem holder_after_iff :
    (ideally.after history).leases.holder key = some token ↔
      ∃ expires, Stays history ⟨key, token, expires⟩ ∧ (lazily.after history).now < expires := by
  have mirrors := (mirrors_after history).2
  simp only [← mem_after_iff, Ideal.holder, Option.map_eq_some_iff]
  constructor
  · rintro ⟨lease, held, rfl⟩
    exact ⟨_, (mirrors.lease_iff ⟨key, lease.1, lease.2⟩).1 held⟩
  · rintro ⟨expires, counts⟩
    exact ⟨_, (mirrors.lease_iff ⟨key, token, expires⟩).2 counts, rfl⟩

/-- Only one lease of a key stays. -/
theorem Stays.eq {a b : Entry} (ha : Stays history a) (hb : Stays history b)
    (same : a.key = b.key) : a = b :=
  (mirrors_after history).2.oneEach.eq (mem_after_iff.2 ha) (mem_after_iff.2 hb) same

theorem release_after_iff :
    ((lazily.after history).leases.release (lazily.after history).now key token).1 = true ↔
      ∃ expires, Stays history ⟨key, token, expires⟩ := by
  rw [Store.release_eq_true_iff (mirrors_after history).2.oneEach]
  simp only [mem_after_iff]
  constructor
  · rintro ⟨entry, stays, rfl, rfl⟩
    exact ⟨_, stays⟩
  · rintro ⟨expires, stays⟩
    exact ⟨_, stays, rfl, rfl⟩

/-- **In every reachable state a lease counts as given back if and only if its token has
the key, or had it until the lease ended and nothing has removed the entry since; never
both, and never if another token has the key.  A guard says the same.** -/
theorem release_iff (history : List Operation) (key : String) (token : Token) :
    let state := lazily.after history
    let ideal := (ideally.after history).leases
    let released := (state.leases.release state.now key token).1
    let lapsed := ∃ expires, Stays history ⟨key, token, expires⟩ ∧ expires ≤ state.now
    (released = true ↔ ideal.holder key = some token ∨ lapsed) ∧
      ¬(ideal.holder key = some token ∧ lapsed) ∧
      (∀ other, ¬(ideal.holder key = some other ∧ released = true ∧ other ≠ token)) ∧
      ∀ world : World,
        ((Guard.release ⟨key, token⟩).run World.answer World.elapse
            { world with now := state.now, leases := state.leases, leaseFaults := {} }).1 =
          .ok released := by
  intro state ideal released lapsed
  have hreleased : released = true ↔ ∃ expires, Stays history ⟨key, token, expires⟩ :=
    release_after_iff
  refine ⟨?_, ?_, ?_, fun world => Guard.run_release World.answer World.elapse ⟨key, token⟩ _⟩
  · rw [hreleased, holder_after_iff, ← exists_or]
    refine exists_congr fun expires => ?_
    rw [← and_or_left, and_iff_left (lt_or_ge _ _)]
  · rintro ⟨held, expires, stays, ended⟩
    obtain ⟨later, stays', goesOn⟩ := holder_after_iff.1 held
    obtain rfl : expires = later := congrArg Entry.expires (stays.eq stays' rfl)
    exact absurd goesOn (not_lt.2 ended)
  · rintro other ⟨held, yes, ne⟩
    obtain ⟨_, stays, -⟩ := holder_after_iff.1 held
    obtain ⟨_, stays'⟩ := hreleased.1 yes
    exact ne (congrArg Entry.token (stays.eq stays' rfl))

-- A lease of one second that is given back when it ends: the store still says yes.
example :
    let state := lazily.after [.obtain "k" (.ofSecs 1) ⟨0⟩, .pass (.ofSecs 1)]
    (state.leases.release state.now "k" ⟨0⟩).1 = true ∧
      (state.leases.holder state.now "k").1 = none := by
  decide +kernel

end Release

end Upkeep.Lease
