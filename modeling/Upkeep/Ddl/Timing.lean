import Upkeep.Duration
import Upkeep.Error

/-!
# Retry schedules

How often a statement is tried, how long each attempt may wait for its lock,
and how long to sleep after an attempt that waited in vain.  A schedule has at
least one attempt.

## Main Definitions

* `Attempt` — the lock timeout of one attempt and the sleep after it.
* `Timing` — a non-empty list of attempts.
* `Timing.partitionDdl`, `Timing.indexRemoval` — the two schedules in use.
-/

namespace Upkeep.Ddl

/-- One attempt of a schedule. -/
structure Attempt where
  /-- How long the statement may wait for its lock. -/
  lockTimeout : Duration
  /-- How long to sleep before the next attempt. -/
  sleep : Duration
  deriving DecidableEq, Repr

/-- A schedule: a first attempt, and those after it. -/
@[ext] structure Timing where
  first : Attempt
  rest : List Attempt
  deriving DecidableEq, Repr

namespace Timing

/-- The attempts in their order. -/
def entries (timing : Timing) : List Attempt := timing.first :: timing.rest

/-- How many attempts a schedule has. -/
def attempts (timing : Timing) : Nat := timing.entries.length

/-- The schedule of the given attempts, of which there must be one. -/
def ofList : List Attempt → Except SetupError Timing
  | [] => .error .emptyTiming
  | first :: rest => .ok ⟨first, rest⟩

/-- The same attempt `count` times, but at least once. -/
def replicate (count : Nat) (attempt : Attempt) : Timing :=
  ⟨attempt, List.replicate (count - 1) attempt⟩

theorem entries_ne_nil (timing : Timing) : timing.entries ≠ [] := by simp [entries]

theorem attempts_pos (timing : Timing) : 0 < timing.attempts := by
  simp [attempts, entries]

theorem entries_replicate (count : Nat) (attempt : Attempt) :
    (replicate count attempt).entries = List.replicate (max count 1) attempt := by
  have : max count 1 = count - 1 + 1 := by omega
  rw [this, List.replicate_succ]
  rfl

/-- An attempt by the milliseconds of its lock timeout and of its sleep. -/
def ofMillis (lockTimeout sleep : Nat) : Attempt :=
  ⟨.ofMillis lockTimeout, .ofMillis sleep⟩

/-- The attempts that follow the first one of a burst. -/
def burst : List Attempt :=
  [ofMillis 100 50, ofMillis 200 50, ofMillis 300 100, ofMillis 400 150, ofMillis 500 2000,
    ofMillis 500 2000]

/-- For the short statements on partitions: three bursts of seven attempts within
five seconds, each followed by one more patient attempt and a longer sleep. -/
def partitionDdl : Timing where
  first := ofMillis 100 50
  rest :=
    burst ++ [ofMillis 1000 5000, ofMillis 100 50] ++ burst ++
      [ofMillis 3000 60000, ofMillis 100 50] ++ burst ++ [ofMillis 5000 180000]

/-- For dropping a leftover index: thirty attempts of a minute, nine minutes
apart. -/
def indexRemoval : Timing := replicate 30 ⟨.ofSecs 60, .ofSecs 540⟩

/-- The schedule that a word stands for. -/
def ofWord? : String → Option Timing
  | "default" | "default_ddl" => some partitionDdl
  | "remove_index" => some indexRemoval
  | _ => none

instance : Inhabited Timing := ⟨partitionDdl⟩

end Timing

end Upkeep.Ddl
