import Upkeep.Proofs.Job.Path
import Upkeep.Proofs.Lease.Store
import Upkeep.Simulation.World

/-!
# Every way out of a lease

Work under a lease may end with a value, it may give up, and it may be dropped at any of its
waits; the lease may be refused, and giving it back may fail or be cut short.  All these ways are
listed here, and on each of them a lease that was obtained is given back once, unless the work was
stopped when there was nobody left to do so.

## Main Definitions

* `givenBack` — the leases that are asked to be given back on a way.
* `Guard.Exit` — what happens to a lease when its work has ended.
* `Course` — the ways of work under a lease.

## Main Statements

* `Guard.path_protect_iff`, `path_holding_iff` — there are no other ways.
* `lease_given_back_on_every_exit` — what they have in common.
-/

namespace Upkeep.Lease

open Service (logged)
open Simulation (World)

variable {α : Type}

/-- The lease that is asked to be given back, whatever comes of it. -/
def givenBack? : Wait Service → Option Guard
  | .asked (.releaseLease key token) _ => some ⟨key, token⟩
  | _ => none

/-- The leases that are asked to be given back. -/
def givenBack (waits : List (Wait Service)) : List Guard := waits.filterMap givenBack?

@[simp] theorem givenBack_nil : givenBack [] = [] := rfl

@[simp] theorem givenBack_cons (wait : Wait Service) (waits : List (Wait Service)) :
    givenBack (wait :: waits) = (givenBack? wait).toList ++ givenBack waits := by
  unfold givenBack
  cases given : givenBack? wait with
  | none => rw [List.filterMap_cons_none given]; rfl
  | some guard => rw [List.filterMap_cons_some given]; rfl

@[simp] theorem givenBack_logged (events : List Event) : givenBack (events.map logged) = [] := by
  simp [givenBack, logged, givenBack?, List.filterMap_eq_nil_iff]

namespace Guard

/-- What is written to the log when a lease is given back after its work. -/
def complaints (guard : Guard) : Except Error Bool → List Event
  | .ok true => []
  | .ok false => [expiredEvent guard.key]
  | .error error => [releaseFailedEvent guard.key error]

/-- What is written to the log when the lease of stopped work is given back. -/
def abandonComplaints (guard : Guard) : Except Error Bool → List Event
  | .ok _ => []
  | .error error => [abandonFailedEvent guard.key error]

/-- What happens to a lease when its work has ended: by the end of the work, what is waited for,
and how it ends. -/
inductive Exit (guard : Guard) :
    Except Interruption α → List (Wait Service) → Except Interruption α → Prop
  /-- The work has a value, and the lease is given back. -/
  | finished (value : α) (answer : Except Error Bool) :
      guard.Exit (.ok value)
        (.asked (.releaseLease guard.key guard.token) (.ok answer) ::
          (guard.complaints answer).map logged)
        (.ok value)
  /-- The work has a value, and it is dropped while the lease is given back. -/
  | finishing (value : α) (why : Interruption) :
      guard.Exit (.ok value) [.asked (.releaseLease guard.key guard.token) (.error why)]
        (.error why)
  /-- The work was stopped, and somebody else gives the lease back. -/
  | surrendered (why : Interruption) (answer : Except Error Bool) :
      guard.Exit (.error why)
        (.asked .canDelegate (.ok true) ::
          .asked (.releaseLease guard.key guard.token) (.ok answer) ::
            (guard.abandonComplaints answer).map logged)
        (.error why)
  /-- The work was stopped, and whoever gives the lease back is stopped as well. -/
  | surrendering (why why' : Interruption) :
      guard.Exit (.error why)
        [.asked .canDelegate (.ok true),
          .asked (.releaseLease guard.key guard.token) (.error why')]
        (.error why')
  /-- The work was stopped, and nobody is left. -/
  | leftBehind (why : Interruption) :
      guard.Exit (.error why)
        [.asked .canDelegate (.ok false), logged (nobodyLeftEvent guard.key)] (.error why)

variable {guard : Guard} {waits : List (Wait Service)} {ending : Except Interruption α}

/-- After work with a value. -/
theorem path_release_bind_iff {value : α} :
    (guard.release.bind fun _ => .done value).Path waits ending ↔
      guard.Exit (.ok value) waits ending := by
  have closing : (guard.release.bind fun _ => .done value).Path waits ending ↔
      (∃ why, waits = [.asked (.releaseLease guard.key guard.token) (.error why)] ∧
        ending = .error why) ∨
      ∃ answer, waits = .asked (.releaseLease guard.key guard.token) (.ok answer) ::
        (guard.complaints answer).map logged ∧ ending = .ok value := by
    rw [release, Job.bind_eq, Job.bind_assoc, Service.path_ask_bind_iff]
    refine or_congr (and_iff_right trivial) (exists_congr fun answer => ?_)
    rcases answer with error | _ | _ <;>
      simp [complaints, Job.bind_assoc, Service.path_log_bind_iff]
  rw [closing]
  constructor
  · rintro (⟨why, rfl, rfl⟩ | ⟨answer, rfl, rfl⟩)
    · exact .finishing value why
    · exact .finished value answer
  · intro exit
    cases exit with
    | finished _ answer => exact .inr ⟨answer, rfl, rfl⟩
    | finishing _ why => exact .inl ⟨why, rfl, rfl⟩

/-- The lease of stopped work is given back by somebody else. -/
theorem path_surrender_bind_iff {why : Interruption} :
    (guard.surrender.bind fun () => .stop why).Path waits ending ↔
      (∃ why', waits = [.asked (.releaseLease guard.key guard.token) (.error why')] ∧
        ending = .error why') ∨
      ∃ answer, waits = .asked (.releaseLease guard.key guard.token) (.ok answer) ::
        (guard.abandonComplaints answer).map logged ∧ ending = .error why := by
  rw [surrender, Job.bind_eq, Job.bind_assoc, Service.path_ask_bind_iff]
  refine or_congr (and_iff_right trivial) (exists_congr fun answer => ?_)
  rcases answer with error | released
  · simp [abandonComplaints, Service.path_log_bind_iff]
  · simp [abandonComplaints]

/-- After work that was stopped. -/
theorem path_abandon_bind_iff {why : Interruption} :
    (guard.abandon.bind fun () => .stop why).Path waits ending ↔
      guard.Exit (.error why) waits ending := by
  rw [abandon, Job.bind_eq, Job.bind_assoc, Service.path_ask_bind_iff]
  constructor
  · rintro (⟨⟨⟩, -⟩ | ⟨left, rest, rfl, onward⟩)
    cases left with
    | false =>
        obtain ⟨rest, rfl, path⟩ := Service.path_log_bind_iff.1 onward
        obtain ⟨rfl, rfl⟩ := Job.path_stop_iff.1 path
        exact .leftBehind why
    | true =>
        rcases path_surrender_bind_iff.1 onward with ⟨why', rfl, rfl⟩ | ⟨answer, rfl, rfl⟩
        · exact .surrendering why why'
        · exact .surrendered why answer
  · intro exit
    cases exit with
    | surrendered _ answer =>
        exact .inr ⟨true, _, rfl, path_surrender_bind_iff.2 (.inr ⟨answer, rfl, rfl⟩)⟩
    | surrendering _ why' =>
        exact .inr ⟨true, _, rfl, path_surrender_bind_iff.2 (.inl ⟨why', rfl, rfl⟩)⟩
    | leftBehind => exact .inr ⟨false, _, rfl, Service.path_log_bind_iff.2 ⟨[], rfl, .stop why⟩⟩

/-- **Work under a lease ends with an exit.** -/
theorem path_protect_iff {work : Job Service α} :
    (guard.protect work).Path waits ending ↔
      ∃ block result closing, waits = logged (obtainedEvent guard) :: (block ++ closing) ∧
        work.Path block result ∧ guard.Exit result closing ending := by
  rw [protect, Job.bind_eq, Job.onStop_bind_eq_andThen, Job.path_andThen_iff]
  constructor
  · rintro ⟨first, closing, why | value, rfl, begun, path⟩
    · obtain ⟨block, rfl, worked⟩ := Service.path_log_bind_iff.1 begun
      exact ⟨block, _, closing, rfl, worked, path_abandon_bind_iff.1 path⟩
    · obtain ⟨block, rfl, worked⟩ := Service.path_log_bind_iff.1 begun
      exact ⟨block, _, closing, rfl, worked, path_release_bind_iff.1 path⟩
  · rintro ⟨block, why | value, closing, rfl, worked, exit⟩
    · exact ⟨_, closing, _, rfl, Service.path_log_bind_iff.2 ⟨block, rfl, worked⟩,
        path_abandon_bind_iff.2 exit⟩
    · exact ⟨_, closing, _, rfl, Service.path_log_bind_iff.2 ⟨block, rfl, worked⟩,
        path_release_bind_iff.2 exit⟩

end Guard

/-! ### The whole way -/

/-- The ways of work under a lease. -/
inductive Course (key : String) (ttl : Duration) (work : Job Service α) :
    List (Wait Service) → Except Interruption (Except Error (Option α)) → Prop
  /-- It is dropped while it asks for the lease. -/
  | dropped (why : Interruption) :
      Course key ttl work [.asked (.obtainLease key ttl) (.error why)] (.error why)
  /-- The store cannot be asked. -/
  | unreachable (error : Error) :
      Course key ttl work [.asked (.obtainLease key ttl) (.ok (.error error))] (.ok (.error error))
  /-- Somebody else has the lease. -/
  | held :
      Course key ttl work [.asked (.obtainLease key ttl) (.ok (.ok none)), logged (heldEvent key)]
        (.ok (.ok none))
  /-- The lease is granted, and the work ends in one way or another. -/
  | granted {token : Token} {block closing : List (Wait Service)}
      {result ending : Except Interruption α} (worked : work.Path block result)
      (exit : Guard.Exit ⟨key, token⟩ result closing ending) :
      Course key ttl work
        (.asked (.obtainLease key ttl) (.ok (.ok (some token))) ::
          logged (obtainedEvent ⟨key, token⟩) :: (block ++ closing))
        (ending.map fun value => .ok (some value))

/-- Work under a lease begins with one request. -/
theorem toJob_holding_eq_ask (key : String) (ttl : Duration) (work : Job Service α) :
    (holding key ttl work).toJob =
      (Service.ask (.obtainLease key ttl)).bind fun
        | .error error => .done (.error error)
        | .ok none => (Service.log (heldEvent key)).bind fun () => .done (.ok none)
        | .ok (some token) =>
            (Guard.protect ⟨key, token⟩ work).bind fun value => .done (.ok (some value)) := by
  rw [toJob_holding]
  refine (Job.bind_assoc ..).trans (congrArg (Job.bind _) (funext fun answer => ?_))
  rcases answer with error | _ | token <;> rfl

/-- **There are no other ways of work under a lease, and all these there are.** -/
theorem path_holding_iff {key : String} {ttl : Duration} {work : Job Service α}
    {waits : List (Wait Service)} {ending : Except Interruption (Except Error (Option α))} :
    (holding key ttl work).toJob.Path waits ending ↔ Course key ttl work waits ending := by
  rw [toJob_holding_eq_ask, Service.path_ask_bind_iff]
  constructor
  · rintro (⟨-, why, rfl, rfl⟩ | ⟨error | _ | token, rest, rfl, onward⟩)
    · exact .dropped why
    · obtain ⟨rfl, rfl⟩ := Job.path_done_iff.1 onward
      exact .unreachable error
    · obtain ⟨rest, rfl, path⟩ := Service.path_log_bind_iff.1 onward
      obtain ⟨rfl, rfl⟩ := Job.path_done_iff.1 path
      exact .held
    · obtain ⟨ending, path, rfl⟩ := Job.path_bind_done_iff.1 onward
      obtain ⟨block, result, closing, rfl, worked, exit⟩ := Guard.path_protect_iff.1 path
      exact .granted worked exit
  · rintro (why | error | _ | ⟨worked, exit⟩)
    · exact .inl ⟨trivial, why, rfl, rfl⟩
    · exact .inr ⟨.error error, [], rfl, .done _⟩
    · exact .inr ⟨.ok none, _, rfl, Service.path_log_bind_iff.2 ⟨[], rfl, .done _⟩⟩
    · refine .inr ⟨.ok (some _), _, rfl, Job.path_bind_done_iff.2 ⟨_, ?_, rfl⟩⟩
      exact Guard.path_protect_iff.2 ⟨_, _, _, rfl, worked, exit⟩

/-- A lease that was given back has no holder, however long after. -/
theorem Store.holder_release {now : Duration} {key : String} {token : Token} {store : Store}
    (h : (store.release now key token).1 = true) (later : Duration) :
    ((store.release now key token).2.holder later key).1 = none := by
  have erased : (store.release now key token).2 = store.erase key := by
    simp only [release] at h ⊢
    split at h
    · split at h
      · next own => rw [if_pos own]
      · cases h
    · cases h
  rw [erased]
  simp only [holder, Option.map_eq_none_iff]
  refine find?_eq_none_iff.2 fun entry mem => ?_
  exact (mem_erase.1 (mem_evictKey.1 mem).1).2

/-- **A lease that was obtained is given back on every exit.**  Whatever came of each wait, nothing
is given back and no work is done if the lease was not obtained.  If it was, then after the work
this lease is given back once and no other: right away if the work has a value, which is the value
of the whole whatever is answered, and by somebody else if the work was stopped and anybody is
left.  A lease that the store says was given back has no holder any more. -/
theorem lease_given_back_on_every_exit {key : String} {ttl : Duration} {work : Job Service α}
    {waits : List (Wait Service)} {ending : Except Interruption (Except Error (Option α))}
    (path : (holding key ttl work).toJob.Path waits ending) :
    (∃ outcome rest, waits = .asked (.obtainLease key ttl) outcome :: rest ∧
      ((∀ token, outcome ≠ .ok (.ok (some token))) →
        givenBack rest = [] ∧ (∀ value, ending ≠ .ok (.ok (some value))) ∧
          ∀ other : Job Service α, (holding key ttl other).toJob.Path waits ending) ∧
      ∀ token, outcome = .ok (.ok (some token)) →
        ∃ block result closing,
          rest = logged (obtainedEvent ⟨key, token⟩) :: (block ++ closing) ∧
          work.Path block result ∧
          (∀ value, result = .ok value →
            givenBack closing = [⟨key, token⟩] ∧
            ∃ answered complaints,
              closing = .asked (.releaseLease key token) answered :: complaints ∧
              ∀ answer, answered = .ok answer → ending = .ok (.ok (some value))) ∧
          ∀ why, result = .error why →
            ∃ left after, closing = .asked .canDelegate (.ok left) :: after ∧
              givenBack closing = (if left then [⟨key, token⟩] else []) ∧
              ∃ why', ending = .error why') ∧
      ∀ (world : World) (token : Token) (later : Duration),
        (world.releaseLease key token).1 = .ok true →
          ((world.releaseLease key token).2.leases.holder later key).1 = none := by
  refine ⟨?_, ?_⟩
  · have course := path_holding_iff.1 path
    cases course with
    | dropped why =>
        refine ⟨_, _, rfl, fun _ => ⟨rfl, nofun, fun other => ?_⟩, nofun⟩
        exact path_holding_iff.2 (.dropped why)
    | unreachable error =>
        refine ⟨_, _, rfl, fun _ => ⟨rfl, nofun, fun other => ?_⟩, nofun⟩
        exact path_holding_iff.2 (.unreachable error)
    | held =>
        refine ⟨_, _, rfl, fun _ => ⟨rfl, nofun, fun other => ?_⟩, nofun⟩
        exact path_holding_iff.2 .held
    | @granted token block closing result ending worked exit =>
        refine ⟨_, _, rfl, fun refused => absurd rfl (refused token), ?_⟩
        rintro _ ⟨⟩
        refine ⟨block, result, closing, rfl, worked, ?_, ?_⟩
        · rintro value rfl
          cases exit with
          | finished _ answer =>
              refine ⟨?_, _, _, rfl, fun _ _ => rfl⟩
              rw [givenBack_cons, givenBack_logged]
              rfl
          | finishing _ why => exact ⟨rfl, _, _, rfl, nofun⟩
        · rintro why rfl
          cases exit with
          | surrendered _ answer =>
              refine ⟨true, _, rfl, ?_, why, rfl⟩
              rw [givenBack_cons, givenBack_cons, givenBack_logged]
              rfl
          | surrendering _ why' => exact ⟨true, _, rfl, rfl, why', rfl⟩
          | leftBehind => exact ⟨false, _, rfl, rfl, why, rfl⟩
  · intro world token later released
    have granted : (world.leases.release world.now key token).1 = true := by
      unfold World.releaseLease at released
      split at released
      · cases released
      · exact Except.ok.inj released
    have leases : (world.releaseLease key token).2.leases =
        (world.leases.release world.now key token).2 := by
      unfold World.releaseLease at released ⊢
      split at released
      · cases released
      · next works => rw [if_neg works]
    rw [leases]
    exact Store.holder_release granted later

/-- Work that reads the clock is dropped meanwhile, and the store cannot be reached when the lease
is given back. -/
theorem lease_given_back_on_every_exit_dropped :
    let guard : Guard := ⟨"database/partitioning/events", ⟨7⟩⟩
    let work : Job Service UInt64 := Service.ask .readClock
    let waits : List (Wait Service) :=
      [.asked (.obtainLease guard.key (.ofSecs 60)) (.ok (.ok (some guard.token))),
        logged (obtainedEvent guard), .asked .readClock (.error .cancelled),
        .asked .canDelegate (.ok true),
        .asked (.releaseLease guard.key guard.token) (.ok (.error World.unreachable)),
        logged (abandonFailedEvent guard.key World.unreachable)]
    (holding guard.key (.ofSecs 60) work).toJob.Path waits (.error .cancelled) ∧
      ∃ block result closing, work.Path block result ∧
        waits = .asked (.obtainLease guard.key (.ofSecs 60)) (.ok (.ok (some guard.token))) ::
          logged (obtainedEvent guard) :: (block ++ closing) ∧
        givenBack closing = [guard] := by
  intro guard work waits
  have dropped : work.Path [.asked .readClock (.error .cancelled)] (.error .cancelled) :=
    .interrupted .cancelled trivial (.stop .cancelled)
  have path : (holding guard.key (.ofSecs 60) work).toJob.Path waits (.error .cancelled) :=
    path_holding_iff.2 (.granted dropped (.surrendered .cancelled (.error World.unreachable)))
  obtain ⟨⟨_, _, same, -, granted⟩, -⟩ := lease_given_back_on_every_exit path
  obtain ⟨first, rfl⟩ := List.cons.inj same
  cases first
  obtain ⟨block, result, closing, rest, worked, -, stopped⟩ := granted _ rfl
  refine ⟨path, block, result, closing, worked, congrArg (List.cons _) rest, ?_⟩
  change (Job.ask (I := Service) .readClock _).Path block result at worked
  cases worked with
  | answered answer => cases (List.cons.inj (List.cons.inj rest).2).1
  | interrupted why slow ended =>
      obtain ⟨rfl, rfl⟩ := Job.path_stop_iff.1 ended
      obtain ⟨left, after, rfl, back, -⟩ := stopped why rfl
      obtain ⟨asked, -⟩ := List.cons.inj (List.cons.inj (List.cons.inj rest).2).2
      cases asked
      exact back

end Upkeep.Lease
