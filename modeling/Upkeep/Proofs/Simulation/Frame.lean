import Upkeep.Simulation.World

/-!
# What requests leave alone

Each part of the simulated world is affected by a few kinds of requests only.  That is said
here once, for all parts that anything is proved about.

## Main Definitions

* `World.Frame` — the parts of the world that a request leaves alone.

## Main Statements

* `World.frame_answer` — every request does.
-/

namespace Upkeep.Simulation.World

/-- The world after a request differs only in what the request is about. -/
structure Frame (r : Service.Request) (world after : World) : Prop where
  leaseFaults : after.leaseFaults = world.leaseFaults := by rfl
  hidesCatalog : after.hidesCatalog = world.hidesCatalog := by rfl
  isFull : after.isFull = world.isFull := by rfl
  isRetired : after.isRetired = world.isRetired := by rfl
  leases : (∀ key ttl, r ≠ .obtainLease key ttl) → (∀ key token, r ≠ .releaseLease key token) →
    after.leases = world.leases ∧ after.tokensDrawn = world.tokensDrawn := by
      exact fun _ _ => ⟨rfl, rfl⟩
  database : (∀ session sql, r ≠ .execute session sql) →
    after.sessions = world.sessions ∧ after.catalog = world.catalog := by
      exact fun _ => ⟨rfl, rfl⟩
  accounts : (∀ account meter n, r ≠ .count account meter n) →
    after.accounts = world.accounts := by exact fun _ => rfl
  actions : (∀ action, r ≠ .createAction action) → (∀ action, r ≠ .updateAction action) →
    after.actions = world.actions := by exact fun _ _ => rfl

/-- **A request leaves alone** what it is not about. -/
theorem frame_answer (r : Service.Request) (world : World) : Frame r world (world.answer r).2 := by
  cases r with
  | obtainLease key ttl =>
      simp only [answer, obtainLease]
      split <;> exact { leases := fun h => absurd rfl (h key ttl) }
  | releaseLease key token =>
      simp only [answer, releaseLease]
      split <;> exact { leases := fun _ h => absurd rfl (h key token) }
  | execute session sql =>
      simp only [answer, execute]
      split
      · exact { database := fun h => absurd rfl (h session sql) }
      · simp only []
        split <;> exact { database := fun h => absurd rfl (h session sql) }
  | createAction action =>
      simp only [answer, createAction]
      split
      · exact { actions := fun h => absurd rfl (h action) }
      · split <;> exact { actions := fun h => absurd rfl (h action) }
  | updateAction action =>
      simp only [answer, updateAction]
      split <;> exact { actions := fun _ h => absurd rfl (h action) }
  | endRebuild worker index =>
      simp only [answer, endRebuild]
      split <;> exact {}
  | count account meter n => exact { accounts := fun h => absurd rfl (h account meter n) }
  | _ => exact {}

end Upkeep.Simulation.World
