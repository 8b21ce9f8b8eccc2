import Upkeep.Proofs.Lease.Span

/-!
# Teams of coordinators

Coordinators with the same settings who share a world: its leases, its actions and its clocks.
Each of them has a worker, a session and an account, and two of them may have the same ones, so
that several jobs of one coordinator are those of as many members.

## Main Definitions

* `Team` — the coordinators with their world.
* `Team.crowd` — the team before its first turn, each member with a job.

## Main Statements

* `emptyHanded_dropAll`, `emptyHanded_automatic` — what coordinators do begins and ends with empty
  hands.
* `Team.opening` — a team of guarded jobs uses leases through guards alone.
-/

namespace Upkeep.Reindex

open Simulation Lease

variable {ι α : Type}

/-! ### Empty hands -/

theorem emptyHanded_dropAll (coordinator : Coordinator) (indexes : List Index) :
    EmptyHanded (coordinator.dropAll indexes) := by
  induction indexes with
  | nil => exact emptyHanded_pure _
  | cons index rest ih =>
      exact (emptyHanded_of_keeps (coordinator.keeps_drop index)).bind fun _ =>
        ih.bind fun _ => emptyHanded_pure _

theorem emptyHanded_performAll (coordinator : Coordinator) (indexes : List Index) :
    EmptyHanded (coordinator.performAll indexes) := by
  induction indexes with
  | nil => exact emptyHanded_pure _
  | cons index rest ih =>
      exact (emptyHanded_of_keeps (coordinator.keeps_perform index)).bind fun _ =>
        ih.bind fun _ => emptyHanded_pure _

/-- The choice of indexes leaves leases alone. -/
private theorem leaseFree_withoutRecent (thresholds : Thresholds) (now : UInt64)
    (indexes : List Index) : (Selection.withoutRecent thresholds now indexes).LeaseFree := by
  induction indexes with
  | nil => exact Task.obeys_pure _
  | cons index rest ih =>
      refine .bind (Task.obeys_attempt (Service.obeys_ask rfl)) fun history => ?_
      split
      · exact .bind (Task.obeys_liftM (Service.obeys_ask rfl)) fun _ => ih
      · exact .bind ih fun _ => Task.obeys_pure _

theorem emptyHanded_automatic (coordinator : Coordinator) (indexes : List Index)
    (maximum : Nat) : EmptyHanded (coordinator.automatic indexes maximum) := by
  refine (emptyHanded_dropAll coordinator _).bind fun _ => ?_
  have hclock : Task.LeaseFree (liftM (Service.ask .readClock) : Task UInt64) :=
    Task.obeys_liftM (Service.obeys_ask rfl)
  refine (emptyHanded_of_leaseFree hclock).bind fun now => ?_
  have hselect : (Selection.select coordinator.settings.thresholds indexes now maximum).LeaseFree :=
    .bind (leaseFree_withoutRecent _ _ _) fun _ => Task.obeys_pure _
  refine (emptyHanded_of_leaseFree hselect).bind fun chosen => ?_
  have hlog : ∀ event, (liftM (Service.log event) : Task Unit).LeaseFree :=
    fun event => Task.obeys_liftM (Service.obeys_ask rfl)
  exact (emptyHanded_of_leaseFree (hlog _)).bind fun _ => emptyHanded_performAll coordinator chosen

/-! ### Teams -/

/-- Coordinators with the same settings who share a world. -/
structure Team (ι : Type) where
  world : World
  oneEach : world.leases.OneEach
  below : world.leases.Below world.tokensDrawn
  settings : Reindex.Settings
  worker : ι → Worker
  session : ι → Session
  account : ι → Account
  notifier : ι → Notifier

namespace Team

variable (team : Team ι)

/-- A member of the team. -/
def coordinator (who : ι) : Coordinator where
  settings := team.settings
  worker := team.worker who
  session := team.session who
  account := team.account who
  notifier := team.notifier who

@[simp] theorem settings_coordinator (who : ι) : (team.coordinator who).settings = team.settings :=
  rfl

/-- The team before its first turn, each member with a job. -/
def crowd (job : ι → Job Service α) : Crowd ι α where
  world := team.world
  stand who := .acting (job who)

/-- A team of guarded jobs uses leases through guards alone. -/
theorem opening {job : ι → Job Service α} (h : ∀ who, Guarded (fun _ => none) (job who)) :
    Opening (fun _ _ => none) (team.crowd job) where
  oneEach := team.oneEach
  below := team.below
  guarded who := ⟨_, rfl, h who⟩

end Team

end Upkeep.Reindex
