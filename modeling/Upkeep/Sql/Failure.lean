/-!
# Failures of statements

What the database says when a statement fails: a message, and a five-character
state if the connection was still there to report one.  One state matters here,
that of a statement which did not get its lock in time.
-/

namespace Upkeep.Sql

/-- The database's report of a failed statement. -/
structure Failure where
  /-- The reported state; absent if the failure lies with the connection. -/
  sqlstate : Option String
  message : String
  deriving DecidableEq, Repr, Inhabited

namespace Failure

/-- The state of a statement that gave up waiting for a lock. -/
def lockNotAvailable : String := "55P03"

/-- A failure without a reported state. -/
def other (message : String) : Failure := ⟨none, message⟩

/-- A statement that gave up waiting for a lock. -/
def lockTimeout (message : String) : Failure := ⟨some lockNotAvailable, message⟩

/-- Whether the statement gave up waiting for a lock, by its state alone. -/
def isLockTimeout (failure : Failure) : Bool :=
  failure.sqlstate == some lockNotAvailable

/-- A lock timeout is a failure of the state `55P03`. -/
theorem isLockTimeout_iff {failure : Failure} :
    failure.isLockTimeout = true ↔ failure.sqlstate = some "55P03" :=
  beq_iff_eq

@[simp] theorem isLockTimeout_lockTimeout (message : String) :
    (lockTimeout message).isLockTimeout = true := by
  simp [isLockTimeout, lockTimeout]

@[simp] theorem isLockTimeout_other (message : String) :
    (other message).isLockTimeout = false := by
  simp [isLockTimeout, other]

end Failure

end Upkeep.Sql
