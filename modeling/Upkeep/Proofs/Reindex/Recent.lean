import Upkeep.Proofs.Simulation.Steps
import Upkeep.Reindex.Selection

/-!
# Recent actions

Which indexes are left when the recent ones are skipped depends on nothing but what the store
lists for each of them.  The store is only asked, so this holds in every world, and if the actions
on one of the indexes cannot be listed then nothing is chosen.

## Main Definitions

* `Selection.fresh` — the indexes without a recent action, by what is listed for each of them.

## Main Statements

* `Selection.run_withoutRecent_eq`, `Selection.run_select_eq` — what is chosen in a world.
* `Selection.fresh_eq_ok_iff` — the indexes that are left.
-/

namespace Upkeep

open Simulation

namespace Thresholds

/-- The window ends when time began if it counts as longer than that. -/
theorem toNat_cutoff_eq (thresholds : Thresholds) (now : UInt64) :
    (thresholds.cutoff now).toNat = now.toNat - thresholds.recent.millis64.toNat := by
  simp only [cutoff]
  split
  · next le => exact UInt64.toNat_sub_of_le _ _ le
  · next before =>
      rw [UInt64.not_le, UInt64.lt_iff_toNat_lt] at before
      show 0 = _
      omega

end Thresholds

namespace Selection

/-- What is known of the actions on each index of each database. -/
abbrev Listing := String → String → Except Error (List Action)

/-- What is listed for an index is recent; what cannot be listed is not. -/
def Listing.recent (listing : Listing) (thresholds : Thresholds) (now : UInt64)
    (index : Index) : Bool :=
  match listing index.database index.identifier with
  | .ok history => thresholds.isRecent now history
  | .error _ => false

/-- The indexes without a recent action, by what is listed for each of them. -/
def fresh (thresholds : Thresholds) (now : UInt64) (listing : Listing) :
    List Index → Except Error (List Index)
  | [] => return []
  | index :: rest => do
      let history ← listing index.database index.identifier
      if thresholds.isRecent now history then fresh thresholds now listing rest
      else return index :: (← fresh thresholds now listing rest)

variable {thresholds : Thresholds} {now : UInt64} {listing : Listing} {index : Index}
  {indexes rest left : List Index} {history : List Action}

section Equations

variable (listed : listing index.database index.identifier = .ok history)
include listed

theorem Listing.recent_eq :
    listing.recent thresholds now index = thresholds.isRecent now history := by
  rw [recent, listed]

theorem fresh_cons_of_recent (recent : thresholds.isRecent now history = true) :
    fresh thresholds now listing (index :: rest) = fresh thresholds now listing rest := by
  simp only [fresh, listed, bind, Except.bind, recent, if_true]

theorem fresh_cons_of_old (old : thresholds.isRecent now history = false) :
    fresh thresholds now listing (index :: rest) =
      (fresh thresholds now listing rest).map (index :: ·) := by
  simp only [fresh, listed, bind, Except.bind, old, Bool.false_eq_true, if_false]
  rfl

end Equations

theorem fresh_cons_of_error {error : Error}
    (refused : listing index.database index.identifier = .error error) :
    fresh thresholds now listing (index :: rest) = .error error := by
  simp only [fresh, refused, bind, Except.bind]

/-! ### Choosing in a world -/

/-- Skipping the recent ones leaves what is fresh by what the store of the world lists. -/
theorem run_withoutRecent_eq (thresholds : Thresholds) (now : UInt64) (indexes : List Index)
    (world : World) :
    ∃ after, (withoutRecent thresholds now indexes).toJob.run World.answer World.elapse world =
      (.ok (fresh thresholds now world.listActions indexes), after) := by
  induction indexes generalizing world with
  | nil => exact ⟨world, rfl⟩
  | cons index rest ih =>
      have asked : (Service.attempt (Service.ask (.listActions index.database
          index.identifier))).toJob.run World.answer World.elapse world =
            (.ok (world.listActions index.database index.identifier), world) := rfl
      rw [withoutRecent]
      cases listed : world.listActions index.database index.identifier with
      | error error =>
          rw [listed] at asked
          rw [fresh_cons_of_error listed]
          exact ⟨world, (Task.bind_of_error asked).1⟩
      | ok history =>
          rw [listed] at asked
          rw [(Task.bind_of_ok asked).1]
          cases recent : thresholds.isRecent now history with
          | true =>
              rw [fresh_cons_of_recent listed recent]
              exact ih (world.write (recentEvent index))
          | false =>
              obtain ⟨after, run⟩ := ih world
              refine ⟨after, ?_⟩
              rw [fresh_cons_of_old listed recent]
              cases others : fresh thresholds now world.listActions rest with
              | error error => exact (Task.bind_of_error (others ▸ run)).1
              | ok others' => exact (Task.bind_of_ok (others ▸ run)).1

/-- What is chosen depends on what the store of the world lists, and on nothing else there. -/
theorem run_select_eq (thresholds : Thresholds) (candidates : List Index) (now : UInt64)
    (maximum : Nat) (world : World) :
    ((select thresholds candidates now maximum).toJob.run World.answer World.elapse world).1 =
      .ok ((fresh thresholds now world.listActions (candidates.filter thresholds.accept)).map
        (rank maximum)) := by
  obtain ⟨after, run⟩ :=
    run_withoutRecent_eq thresholds now (candidates.filter thresholds.accept) world
  rw [select]
  cases left : fresh thresholds now world.listActions (candidates.filter thresholds.accept) with
  | error error => rw [(Task.bind_of_error (left ▸ run)).1]; rfl
  | ok left' => rw [(Task.bind_of_ok (left ▸ run)).1]; rfl

/-! ### What is left -/

/-- If anything is left at all then the actions on all the indexes could be listed, and those are
left that are not recent. -/
theorem fresh_eq_ok_iff :
    fresh thresholds now listing indexes = .ok left ↔
      (∀ index ∈ indexes, ∃ history, listing index.database index.identifier = .ok history) ∧
        left = indexes.filter fun index => !listing.recent thresholds now index := by
  induction indexes generalizing left with
  | nil => simp [fresh, pure, Except.pure, eq_comm]
  | cons index rest ih =>
      rw [List.forall_mem_cons]
      cases listed : listing index.database index.identifier with
      | error error => simp [fresh_cons_of_error listed]
      | ok history =>
          simp only [Except.ok.injEq, exists_eq', true_and]
          cases recent : thresholds.isRecent now history with
          | true =>
              rw [fresh_cons_of_recent listed recent, ih, List.filter_cons_of_neg]
              simp [Listing.recent_eq listed, recent]
          | false =>
              have mapped : (fresh thresholds now listing rest).map (index :: ·) = .ok left ↔
                  ∃ others, fresh thresholds now listing rest = .ok others ∧
                    index :: others = left := by
                cases fresh thresholds now listing rest <;> simp [Except.map]
              rw [fresh_cons_of_old listed recent, mapped, List.filter_cons_of_pos (by
                simp [Listing.recent_eq listed, recent])]
              simp only [ih]
              constructor
              · rintro ⟨others, ⟨lists, rfl⟩, rfl⟩
                exact ⟨lists, rfl⟩
              · rintro ⟨lists, rfl⟩
                exact ⟨_, ⟨lists, rfl⟩, rfl⟩

end Selection

end Upkeep
