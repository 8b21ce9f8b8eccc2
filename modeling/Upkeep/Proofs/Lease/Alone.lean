import Upkeep.Proofs.Lease.Work
import Upkeep.Proofs.Simulation.Frame
import Upkeep.Proofs.Simulation.Steps

/-!
# A lease that nobody else wants

Work under a lease in a world in which the store can be reached and nobody has the lease:
the work is done, and after it nobody has the lease.

## Main Definitions

* `Available` — the store can be reached, and nobody has the lease.

## Main Statements

* `keeps_acquire` — a request for a lease, whoever has it.
* `keeps_holding_alone` — work under a lease.
* `Manager.keeps_sync_alone` — a sync.
-/

namespace Upkeep.Lease

open Simulation

variable {α : Type} {key : String} {world : World}

/-- The store can be reached, and nobody has the lease. -/
structure Available (key : String) (world : World) : Prop where
  obtain : world.leaseFaults.obtain = false
  release : world.leaseFaults.release = false
  free : ∀ entry ∈ world.leases.entries, entry.key = key → entry.isLive world.now = false

/-- The store can be reached, and its entries are these. -/
private structure Holds (store : Store) (world : World) : Prop where
  obtain : world.leaseFaults.obtain = false
  release : world.leaseFaults.release = false
  leases : world.leases = store

private theorem Holds.of_same {store : Store} {after : World} (h : Holds store world)
    (hfaults : after.leaseFaults = world.leaseFaults) (hleases : after.leases = world.leases) :
    Holds store after :=
  ⟨hfaults ▸ h.obtain, hfaults ▸ h.release, hleases.trans h.leases⟩

private theorem Holds.answer {store : Store} (h : Holds store world) {r : Service.Request}
    (hfree : r.isLease = false) : Holds store (world.answer r).2 := by
  have hframe := World.frame_answer r world
  refine h.of_same hframe.leaseFaults (hframe.leases ?_ ?_).1
  · rintro key ttl rfl
    cases hfree
  · rintro key token rfl
    cases hfree

/-- How a request for a lease ends is up to the store. -/
theorem keeps_acquire {ttl : Duration} {ok : Option Guard → World → Prop}
    {failed : Error → World → Prop} {stopped : Interruption → World → Prop}
    (h : match world.obtainLease key ttl with
      | (.ok token?, after) => ok (token?.map fun token => ⟨key, token⟩) after
      | (.error error, after) => failed error after) :
    (acquire key ttl).Keeps World.answers (fun _ _ => True) ok failed stopped world := by
  refine Task.keeps_bind.2 (Task.keeps_attempt.2
    ((Service.keeps_ask (r := .obtainLease key ttl)).2 ⟨trivial, ?_, False.elim⟩))
  rintro answer rfl
  simp only [World.answers, World.answer]
  generalize world.obtainLease key ttl = outcome at h
  obtain ⟨error | token?, after⟩ := outcome
  · exact h
  · exact h

/-- A lease that lasted until it is given back. -/
theorem keeps_release_of_returned {guard : Guard} {ok : Bool → World → Prop}
    {stopped : Interruption → World → Prop} {after : World}
    (hreturned : world.releaseLease guard.key guard.token = (.ok true, after))
    (hok : ok true after) :
    guard.release.Keeps World.answers (fun _ _ => True) ok stopped world := by
  refine Guard.keeps_release_iff.2 (Service.keeps_ask.2 ⟨trivial, ?_, False.elim⟩)
  rintro answer rfl
  simp only [World.answers, World.answer, hreturned]
  exact hok

/-- Once the entry of the key is given back, nobody has the lease. -/
private theorem keeps_release_alone (guard : Guard) {store : Store} {entry : Entry}
    (h : Holds store world) (hentry : store.find? guard.key = some entry)
    (htoken : entry.token = guard.token) :
    guard.release.Keeps World.answers (fun _ _ => True) (fun _ after => Available guard.key after)
      (fun _ _ => True) world := by
  have hreturned : world.releaseLease guard.key guard.token =
      (.ok true, { world with leases := store.erase guard.key }) := by
    simp only [World.releaseLease, h.release, Bool.false_eq_true, if_false, h.leases,
      Store.release_of_find? hentry htoken]
  refine keeps_release_of_returned hreturned ⟨h.obtain, h.release, fun other hm hk => ?_⟩
  exact absurd hk (Store.mem_erase.1 hm).2

/-- **Work under a lease that nobody else wants** is done, and then nobody has the
lease. -/
theorem keeps_holding_alone (ttl : Duration) {work : Job Service α} (hwork : work.LeaseFree)
    (h : Available key world) :
    (holding key ttl work).Keeps World.answers (fun _ _ => True)
      (fun result? after => result?.isSome = true ∧ Available key after) (fun _ _ => False)
      (fun _ _ => True) world := by
  set token : Token := ⟨world.tokensDrawn⟩ with htoken
  set store := (world.leases.obtain world.now key ttl token).2 with hstore
  have hgranted : (world.leases.obtain world.now key ttl token).1 = true :=
    Store.obtain_eq_true_iff.2 h.free
  have hentry : store.find? key = some ⟨key, token, world.now + ttl⟩ := Store.find?_obtain hgranted
  have hobtained : world.obtainLease key ttl =
      (.ok (some token), { world with tokensDrawn := world.tokensDrawn + 1, leases := store }) := by
    simp only [World.obtainLease, World.drawToken, h.obtain, Bool.false_eq_true, if_false,
      ← htoken, hgranted, if_true, hstore]
  refine Task.keeps_bind.2 (keeps_acquire ?_)
  rw [hobtained]
  refine Task.keeps_map.2 (Task.keeps_ofJob.2 (Guard.keeps_protect_iff.2 (Service.keeps_log.2
    ⟨trivial, fun answer _ => ?_, False.elim⟩)))
  have hholds : Holds store
      { world with tokensDrawn := world.tokensDrawn + 1, leases := store } :=
    ⟨h.obtain, h.release, rfl⟩
  have hlogged := hholds.answer (r := .log (obtainedEvent ⟨key, token⟩)) rfl
  refine (Job.Obeys.keeps hwork (fun _ _ _ _ => trivial) ?_
    (fun _ _ _ hs => hs.of_same rfl rfl) hlogged).mono (fun _ _ hr => hr)
    (fun value after hs => ?_) fun _ _ _ => ?_
  · exact fun _ r answer hs hfree => hs.answer hfree
  · exact (keeps_release_alone ⟨key, token⟩ hs hentry rfl).mono (fun _ _ hr => hr)
      (fun _ after hfree => ⟨rfl, hfree⟩) fun _ _ hs => hs
  · exact Job.keeps_trivially _ _

end Upkeep.Lease

namespace Upkeep.Partition.Manager

open Simulation Lease

/-- **A sync that nobody else is at** is done, and then nobody is at it. -/
theorem keeps_sync_alone {manager : Manager} (h : manager.strategy.LeaseFree) {world : World}
    (havailable : Available manager.leaseKey world) :
    manager.sync.Keeps World.answers (fun _ _ => True)
      (fun report? after => report?.isSome = true ∧ Available manager.leaseKey after)
      (fun _ after => Available manager.leaseKey after) (fun _ _ => True) world := by
  refine Task.keeps_bind.2 ((keeps_holding_alone _ (leaseFree_syncLocked h) havailable).mono
    (fun _ _ hr => hr) ?_ (fun _ _ => False.elim) fun _ _ hs => hs)
  rintro result? after ⟨hsome, hfree⟩
  match result? with
  | some (.ok report) => exact Task.keeps_map.2 (Task.keeps_attempt.2 ⟨rfl, hfree⟩)
  | some (.error error) => exact Task.keeps_map.2 (Task.keeps_attempt.2 hfree)

end Upkeep.Partition.Manager
