import Upkeep.Proofs.Job.Transcript
import Upkeep.Proofs.Simulation.Frame

/-!
# What a job counts

What a job counts can be read off its transcript, whatever was counted before it.  So jobs with
the same transcript count the same, and it does not matter which of two jobs counts first.

## Main Definitions

* `Metrics.count`, `World.tally` — how much was counted of one thing.
* `Transcript.counted` — how much is counted in a transcript.

## Main Statements

* `World.tally_run` — a job adds to every count what is counted in its transcript.
-/

namespace Upkeep

/-- How much was counted of one thing. -/
def Metrics.count (metrics : Metrics) : Meter → UInt64
  | .reindexStarted => metrics.reindexStarted.value
  | .reindexFinished => metrics.reindexFinished.value
  | .reindexFailed => metrics.reindexFailed.value
  | .leaseSkipped => metrics.leaseSkipped.value
  | .indexesDropped => metrics.indexesDropped.value
  | .indexesAbandoned => metrics.indexesAbandoned.value
  | .lockRetries => metrics.lockRetries.value
  | .inconsistentPartitions => metrics.inconsistentPartitions.value
  | .partitionsCreated table => metrics.partitionsCreated.get [table]
  | .partitionsDetached table => metrics.partitionsDetached.get [table]

private theorem LabeledCounter.get_add_eq (counter : LabeledCounter) (key key' : List String)
    (n : UInt64) :
    (counter.add key n).get key' = counter.get key' + if key = key' then n else 0 := by
  rw [get_add]
  by_cases same : key = key'
  · subst same
    simp
  · simp [same, Ne.symm same]

/-- Counting one thing leaves all others alone. -/
theorem Metrics.count_add (metrics : Metrics) (n : UInt64) (meter meter' : Meter) :
    (metrics.add n meter).count meter' =
      metrics.count meter' + if meter = meter' then n else 0 := by
  cases meter <;> cases meter' <;> simp [add, count, LabeledCounter.get_add_eq]

/-- How much an exchange counts of one thing on an account. -/
def Exchange.counted (account : Account) (meter : Meter) (exchange : Exchange Service) : UInt64 :=
  match exchange.request with
  | .count account' meter' n => if account' = account ∧ meter' = meter then n else 0
  | _ => 0

/-- How much is counted of one thing on an account. -/
def Transcript.counted (account : Account) (meter : Meter) : Transcript Service → UInt64
  | [] => 0
  | exchange :: rest => exchange.counted account meter + counted account meter rest

theorem Transcript.counted_append (account : Account) (meter : Meter) (t t' : Transcript Service) :
    counted account meter (t ++ t') = counted account meter t + counted account meter t' := by
  induction t with
  | nil => exact (UInt64.zero_add _).symm
  | cons exchange t ih => rw [List.cons_append, counted, counted, ih, UInt64.add_assoc]

namespace Simulation.World

variable {α : Type}

/-- How much was counted of one thing on an account. -/
def tally (world : World) (account : Account) (meter : Meter) : UInt64 :=
  (world.account account).count meter

theorem tally_of_accounts {world after : World} (h : after.accounts = world.accounts) :
    after.tally = world.tally := by
  funext account meter
  simp only [tally, World.account, h]

theorem tally_answer (r : Service.Request) (world : World) (account : Account) (meter : Meter) :
    (world.answer r).2.tally account meter =
      world.tally account meter + Exchange.counted account meter ⟨r, (world.answer r).1⟩ := by
  by_cases counts : ∃ account' meter' n, r = .count account' meter' n
  · obtain ⟨account', meter', n, rfl⟩ := counts
    simp only [answer, tally, setAccount, World.account, Assoc.lookup_put, Exchange.counted,
      beq_iff_eq]
    by_cases same : account = account'
    · subst same
      simp [Metrics.count_add]
    · simp [same, Ne.symm same]
  · have silent : ∀ account' meter' n, r ≠ .count account' meter' n :=
      fun account' meter' n heq => counts ⟨account', meter', n, heq⟩
    rw [tally_of_accounts ((frame_answer r world).accounts silent)]
    cases r with
    | count account' meter' n => exact absurd rfl (silent account' meter' n)
    | _ => exact (UInt64.add_zero _).symm

/-- **A job adds to every count** what is counted in its transcript. -/
theorem tally_run (job : Job Service α) (world : World) (account : Account) (meter : Meter) :
    (job.run answer elapse world).2.tally account meter =
      world.tally account meter + (job.transcript answer elapse world).counted account meter := by
  induction job generalizing world with
  | done value => exact (UInt64.add_zero _).symm
  | stop why => exact (UInt64.add_zero _).symm
  | sleep length next ih => exact ih _ _
  | ask r next ih =>
      rw [Job.run_ask, ih, tally_answer, UInt64.add_assoc]
      rfl

end Simulation.World

end Upkeep
