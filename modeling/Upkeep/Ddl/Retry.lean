import Upkeep.Ddl.Timing
import Upkeep.Service
import Upkeep.Sql.Statement

/-!
# Retried statements

A statement on a busy table may wait for its lock longer than anybody wants to
wait for it, and blocks others meanwhile.  So it gets a short time to obtain the
lock, and if it did not then it is tried again after a sleep, as its schedule
says.  Any other failure ends the matter at once.

## Main Definitions

* `Retrier` — the session and the metrics of retried statements.
* `Retrier.run` — a statement under a schedule.
* `Outcome` — the ways in which that ends without an error.

## Design Notes

Each attempt sets the session's lock timeout, executes the statement and undoes
the timeout again, whatever became of the statement.  Only the failure to set
the timeout counts as the statement's failure; the failure to undo it is logged.
-/

namespace Upkeep.Ddl

/-- How a retried statement ended without an error. -/
inductive Outcome where
  /-- It succeeded on the given attempt. -/
  | completed (attempts : Nat)
  /-- All of the given attempts ran into a lock timeout. -/
  | exhausted (attempts : Nat)
  deriving DecidableEq, Repr

/-- The word for an outcome. -/
def Outcome.word : Outcome → String
  | completed _ => "Completed"
  | exhausted _ => "Exhausted"

/-- Whether the statement was executed. -/
def Outcome.isCompleted : Outcome → Bool
  | completed _ => true
  | exhausted _ => false

/-- How many attempts there were. -/
def Outcome.attempts : Outcome → Nat
  | completed attempts => attempts
  | exhausted attempts => attempts

/-! ### Events -/

/-- An attempt begins. -/
def attemptEvent (attempt total : Nat) (entry : Attempt) (statement : String) : Event where
  level := .debug
  message := "Executing statement with lock timeout"
  fields :=
    [("attempt", toString attempt), ("total", toString total),
      ("lock_timeout_ms", toString entry.lockTimeout.millis64), ("statement", statement)]

/-- The lock timeout could not be undone. -/
def resetFailedEvent (failure : Sql.Failure) : Event :=
  ⟨.warn, "Failed to reset lock_timeout", [("error", failure.message)]⟩

/-- An attempt ran into its lock timeout. -/
def lockTimeoutEvent (attempt total : Nat) (entry : Attempt) (failure : Sql.Failure)
    (statement : String) : Event where
  level := .warn
  message := "Lock timeout, retrying"
  fields :=
    [("attempt", toString attempt), ("total", toString total),
      ("sleep_ms", toString entry.sleep.millis64), ("error", failure.message),
      ("statement", statement)]

/-- No attempt is left. -/
def gaveUpEvent (attempts : Nat) (failure : Sql.Failure) (statement : String) : Event where
  level := .warn
  message := "Lock retries exhausted, giving up"
  fields :=
    [("attempts", toString attempts), ("error", failure.message), ("statement", statement)]

/-! ### Attempts -/

/-- The session in which retried statements are executed, and the account in
which lock timeouts are counted. -/
structure Retrier where
  session : Session
  account : Account
  deriving DecidableEq, Repr

namespace Retrier

/-- Executes a statement. -/
def execute (retrier : Retrier) (sql : String) : Job Service (Except Sql.Failure Unit) :=
  Service.ask (.execute retrier.session sql)

/-- One attempt: nothing if the statement succeeded, and its failure if that was
a lock timeout. -/
def attempt (retrier : Retrier) (attempt total : Nat) (entry : Attempt) (statement : String) :
    Task (Option Sql.Failure) := do
  let set := Sql.Statement.setLockTimeout entry.lockTimeout.millis
  if let .error failure ← retrier.execute set.text then throw (.statement failure)
  Service.log (attemptEvent attempt total entry statement)
  let result ← retrier.execute statement
  -- The session goes back to its own timeout before the result is looked at.
  if let .error failure ← retrier.execute Sql.Statement.resetLockTimeout.text then
    Service.log (resetFailedEvent failure)
  match result with
  | .ok () => return none
  | .error failure =>
      if failure.isLockTimeout then
        Service.count retrier.account .lockRetries
        Service.log (lockTimeoutEvent attempt total entry failure statement)
        return some failure
      else throw (.statement failure)

/-- The attempts from the given one on: the attempt that succeeded, or the last
lock timeout. -/
def tryAll (retrier : Retrier) (total : Nat) (statement : String) (attempt : Nat)
    (entry : Attempt) : List Attempt → Task (Except Sql.Failure Nat)
  | [] => do
      -- There is no sleep after the last attempt.
      match ← retrier.attempt attempt total entry statement with
      | none => return .ok attempt
      | some failure => return .error failure
  | next :: rest => do
      match ← retrier.attempt attempt total entry statement with
      | none => return .ok attempt
      | some _ =>
          Service.sleep entry.sleep
          retrier.tryAll total statement (attempt + 1) next rest

/-- Executes a statement under a schedule.  If each attempt runs into a lock
timeout, that is an error if `raise` says so, and otherwise an outcome. -/
def run (retrier : Retrier) (statement : String) (timing : Timing) (raise : Bool) :
    Task Outcome := do
  match ← retrier.tryAll timing.attempts statement 1 timing.first timing.rest with
  | .ok attempt => return .completed attempt
  | .error failure =>
      if raise then throw (.retriesExhausted timing.attempts failure)
      else
        Service.log (gaveUpEvent timing.attempts failure statement)
        return .exhausted timing.attempts

end Retrier

end Upkeep.Ddl
