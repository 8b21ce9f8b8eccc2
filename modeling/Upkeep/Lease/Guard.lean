import Upkeep.Service

/-!
# Leases held for a while

Work that only one worker at a time may do runs under a lease: the lease is
obtained first, and it is given back however the work ends.  Nobody ever waits
for a lease; if somebody has it then the work is left to them.

## Main Definitions

* `Guard` — a lease that was obtained and has to be given back.
* `acquire`, `Guard.release` — obtaining it, and giving it back.
* `Guard.surrender`, `Guard.abandon` — what happens to it if the work is stopped.
* `holding` — work under a lease.

## Design Notes

A lease is not renewed: work that takes longer than its lease may overlap with
that of the next holder, and learns about it only when it gives the lease back.
Giving back never fails the work: what can go wrong with it is logged, and the
lease is left to expire.
-/

namespace Upkeep.Lease

/-- A lease that was obtained and not given back yet. -/
structure Guard where
  key : String
  token : Token
  deriving DecidableEq, Repr

/-! ### Events -/

/-- Somebody else has the lease. -/
def heldEvent (key : String) : Event :=
  ⟨.debug, "Lease held by another worker, skipping", [("lease_key", key)]⟩

/-- The lease was obtained. -/
def obtainedEvent (guard : Guard) : Event :=
  ⟨.debug, "Lease obtained", [("lease_key", guard.key), ("token", toString guard.token)]⟩

/-- The lease had ended before it was given back. -/
def expiredEvent (key : String) : Event :=
  ⟨.warn, "Lease expired before it was released", [("lease_key", key)]⟩

/-- The lease could not be given back. -/
def releaseFailedEvent (key : String) (error : Error) : Event :=
  ⟨.warn, "Failed to release lease, leaving it to expire",
    [("lease_key", key), ("error", error.message)]⟩

/-- The lease of stopped work could not be given back. -/
def abandonFailedEvent (key : String) (error : Error) : Event :=
  ⟨.warn, "Failed to release abandoned lease", [("lease_key", key), ("error", error.message)]⟩

/-- There is nobody left to give back the lease of stopped work. -/
def nobodyLeftEvent (key : String) : Event :=
  ⟨.warn, "No runtime to release abandoned lease, leaving it to expire", [("lease_key", key)]⟩

/-! ### Guards -/

/-- Obtains the lease if nobody has it. -/
def acquire (key : String) (ttl : Duration) : Task (Option Guard) := do
  let token? ← Service.attempt (Service.ask (.obtainLease key ttl))
  return token?.map fun token => ⟨key, token⟩

namespace Guard

/-- Gives the lease back, and says whether it had lasted that long. -/
def release (guard : Guard) : Job Service Bool := do
  match ← Service.ask (.releaseLease guard.key guard.token) with
  | .ok true => return true
  | .ok false =>
      Service.log (expiredEvent guard.key)
      return false
  | .error error =>
      Service.log (releaseFailedEvent guard.key error)
      return false

/-- Gives the lease of stopped work back. -/
def surrender (guard : Guard) : Job Service Unit := do
  match ← Service.ask (.releaseLease guard.key guard.token) with
  | .ok _ => return ()
  | .error error => Service.log (abandonFailedEvent guard.key error)

/-- Has the lease of stopped work given back, if anybody is left to do so. -/
def abandon (guard : Guard) : Job Service Unit := do
  if ← Service.ask .canDelegate then guard.surrender
  else Service.log (nobodyLeftEvent guard.key)

/-- Work under the lease, which is given back at the end; if the work is stopped
then the lease is abandoned. -/
def protect {α : Type} (guard : Guard) (work : Job Service α) : Job Service α := do
  -- The guard is already responsible while its first event is written.
  let value ← (do Service.log (obtainedEvent guard); work : Job Service α).onStop guard.abandon
  let _ ← guard.release
  return value

end Guard

/-- Work under the lease with that key; nothing, and no work, if somebody else
has it. -/
def holding {α : Type} (key : String) (ttl : Duration) (work : Job Service α) :
    Task (Option α) := do
  match ← acquire key ttl with
  | none =>
      Service.log (heldEvent key)
      return none
  | some guard => some <$> Task.ofJob (guard.protect work)

/-- The three ways of work under a lease. -/
theorem toJob_holding {α : Type} (key : String) (ttl : Duration) (work : Job Service α) :
    (holding key ttl work).toJob =
      (acquire key ttl).toJob.bind fun
        | .error error => .done (.error error)
        | .ok none => (Service.log (heldEvent key)).bind fun () => .done (.ok none)
        | .ok (some guard) =>
            (guard.protect work).bind fun value => .done (.ok (some value)) := by
  refine congrArg (Job.bind (acquire key ttl).toJob) (funext fun result => ?_)
  match result with
  | .error error => rfl
  | .ok none =>
      show Job.bind (Job.bind (Service.log (heldEvent key)) _) _ = _
      rw [Job.bind_assoc]
      rfl
  | .ok (some guard) =>
      show Job.bind (Job.bind (guard.protect work) _) _ = _
      rw [Job.bind_assoc]
      rfl

end Upkeep.Lease
