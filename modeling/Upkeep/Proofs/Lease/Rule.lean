import Upkeep.Lease.Guard
import Upkeep.Proofs.Job.Rule

/-!
# Rules that work under a lease keeps

Whatever the work is, what is done before it, after it and instead of it is the same.  So it is
taken apart once, for any rule and in any surroundings.

## Main Statements

* `keeps_holding_iff` — work under a lease, by the answer to the request for the lease.
* `Guard.keeps_protect_iff` — protected work, by the ways in which the work ends.
* `Guard.keeps_release_iff` — a lease that is given back, by the answer to that.
* `Guard.keeps_release_of_kept` — giving a lease back preserves what its requests preserve.
-/

namespace Upkeep.Lease

variable {σ α : Type} {S : Surroundings Service σ} {rule : σ → Service.Request → Prop}
  {stopped : Interruption → σ → Prop} {s : σ}

namespace Guard

variable {guard : Guard}

/-- A lease is given back by one request, which nothing or one event follows. -/
theorem keeps_release_iff {ok : Bool → σ → Prop} :
    guard.release.Keeps S rule ok stopped s ↔
      (Service.ask (.releaseLease guard.key guard.token)).Keeps S rule
        (fun released s => match released with
          | .ok true => ok true s
          | .ok false =>
              (Service.log (expiredEvent guard.key)).Keeps S rule (fun _ => ok false) stopped s
          | .error error =>
              (Service.log (releaseFailedEvent guard.key error)).Keeps S rule (fun _ => ok false)
                stopped s) stopped s := by
  refine Job.keeps_bind.trans (iff_of_eq ?_)
  refine congrArg (Job.Keeps S rule · stopped _ s) ?_
  funext released s
  match released with
  | .ok true => rfl
  | .ok false => exact propext Job.keeps_bind
  | .error error => exact propext Job.keeps_bind

/-- What the request and the event preserve is preserved when a lease is given back. -/
theorem keeps_release_of_kept {kept : σ → Prop}
    (asked : (Service.ask (.releaseLease guard.key guard.token)).Keeps S rule (fun _ => kept)
      stopped s)
    (logged : ∀ event s, kept s → (Service.log event).Keeps S rule (fun _ => kept) stopped s) :
    guard.release.Keeps S rule (fun _ => kept) stopped s := by
  refine keeps_release_iff.2 (asked.mono (fun _ _ hr => hr) (fun released s hs => ?_)
    fun _ _ hs => hs)
  match released with
  | .ok true => exact hs
  | .ok false => exact logged _ s hs
  | .error error => exact logged _ s hs

/-- Protected work keeps a rule exactly if the work does from the first event on, and then what
becomes of the lease at either end of the work. -/
theorem keeps_protect_iff {work : Job Service α} {ok : α → σ → Prop} :
    (guard.protect work).Keeps S rule ok stopped s ↔
      (Service.log (obtainedEvent guard)).Keeps S rule
        (fun _ s => work.Keeps S rule
          (fun value s => guard.release.Keeps S rule (fun _ => ok value) stopped s)
          (fun why s => guard.abandon.Keeps S rule (fun _ => stopped why) stopped s) s)
        (fun why s => guard.abandon.Keeps S rule (fun _ => stopped why) stopped s) s := by
  refine Job.keeps_bind.trans (Job.keeps_onStop.trans (Job.keeps_bind.trans (iff_of_eq ?_)))
  refine congrArg (Job.Keeps S rule · _ _ s) ?_
  funext _ s
  refine congrArg (Job.Keeps S rule · _ work s) ?_
  funext value s
  exact propext Job.keeps_bind

end Guard

/-- Work under a lease keeps a rule exactly if the request for the lease does, and then what
follows by its answer. -/
theorem keeps_holding_iff {key : String} {ttl : Duration} {work : Job Service α}
    {ok : Option α → σ → Prop} {failed : Error → σ → Prop} :
    (holding key ttl work).Keeps S rule ok failed stopped s ↔
      (Service.ask (.obtainLease key ttl)).Keeps S rule
        (fun answer s => match answer with
          | .error error => failed error s
          | .ok none => (Service.log (heldEvent key)).Keeps S rule (fun _ => ok none) stopped s
          | .ok (some token) =>
              (Guard.protect ⟨key, token⟩ work).Keeps S rule (fun value => ok (some value))
                stopped s) stopped s := by
  refine Task.keeps_bind.trans (Task.keeps_bind.trans (Task.keeps_attempt.trans (iff_of_eq ?_)))
  refine congrArg (Job.Keeps S rule · stopped _ s) ?_
  funext answer s
  match answer with
  | .error error => rfl
  | .ok none => exact propext (Task.keeps_bind.trans Task.keeps_liftM)
  | .ok (some token) => exact propext (Task.keeps_map.trans Task.keeps_ofJob)

end Upkeep.Lease
