import Upkeep.Partition.SlidingList
import Upkeep.Partition.Sync
import Upkeep.Proofs.Job.Rule

/-!
# A run by its parts

Properties that are passed on from the parts of a task to the whole.  Whatever has such a
property in each of its decisions and in each of its statements has it in a run.

## Main Definitions

* `Strategy.Each` — the property of each decision of a strategy.
* `SlidingList.Reads` — the property of all that a sliding list reads.
* `SlidingList.moveDefault` — what a list does once it knows its active partition.

## Main Statements

* `SlidingList.Reads.each` — the decisions of a sliding list.
* `Manager.syncLocked_of_each` — a run.
-/

namespace Upkeep

namespace Partition

variable {P : (α : Type) → Task α → Prop}

/-- The property of each decision of a strategy. -/
structure Strategy.Each (P : (α : Type) → Task α → Prop) (strategy : Strategy) : Prop where
  missing : P _ strategy.missing
  extra : P _ strategy.extra
  afterAdding : P _ strategy.afterAdding
  lags : P _ strategy.lags

/-- All that a sliding list reads has the property, and so have its failures. -/
structure SlidingList.Reads (P : (α : Type) → Task α → Prop) (list : SlidingList) : Prop where
  throw : ∀ {α : Type} (error : Error), P α (throw error)
  partitions : P _ (Service.attempt (Service.ask (.listPartitions list.table)))
  default : P _ (Service.attempt (Service.ask (.readDefault list.table list.column)))
  isFull : ∀ value, P _ (liftM (Service.ask (.isFull value)))
  isRetired : ∀ value, P _ (liftM (Service.ask (.isRetired value)))

/-- Makes a value the default. -/
def SlidingList.moveDefault (list : SlidingList) (value : Int64) : Task Unit := do
  let retrier : Ddl.Retrier := ⟨list.session, list.account⟩
  let _ ← retrier.run (list.setDefaultStatement value).text list.timing true
  Service.log (defaultMovedEvent list.table list.column value)

namespace SlidingList.Reads

variable {list : SlidingList}

theorem imp {Q : (α : Type) → Task α → Prop} (h : list.Reads P)
    (hPQ : ∀ {α : Type} {task : Task α}, P α task → Q α task) : list.Reads Q where
  throw error := hPQ (h.throw error)
  partitions := hPQ h.partitions
  default := hPQ h.default
  isFull value := hPQ (h.isFull value)
  isRetired value := hPQ (h.isRetired value)

variable (hP : Task.Composes P) (h : list.Reads P)
include hP h

theorem current : P _ list.current := by
  refine hP.bind h.partitions fun listings => ?_
  split
  · exact hP.pure _
  · exact h.throw _

theorem active? : P _ list.active? := hP.bind (h.current hP) fun _ => hP.pure _

theorem active : P _ list.active := by
  refine hP.bind (h.active? hP) fun active? => ?_
  split
  · exact hP.pure _
  · exact h.throw _

theorem default? : P _ list.default? := by
  refine hP.bind h.default fun expression? => ?_
  split
  · exact hP.pure _
  · split
    · exact hP.pure _
    · exact h.throw _

theorem missing : P _ list.missing := by
  refine hP.bind (h.current hP) fun partitions => ?_
  split
  · exact hP.pure _
  · refine hP.bind (h.isFull _) fun full => ?_
    split
    · refine hP.bind ?_ fun _ => hP.pure _
      unfold following
      split
      · exact hP.pure _
      · exact h.throw _
    · exact hP.pure _

theorem takeRetired (partitions : List Partition) : P _ (Task.ofJob (takeRetired partitions)) := by
  induction partitions with
  | nil => exact hP.pure _
  | cons partition rest ih =>
      rw [SlidingList.takeRetired, Job.bind_eq, Task.ofJob_bind]
      refine hP.bind (h.isRetired _) fun retired => ?_
      split
      · rw [Job.bind_eq, Task.ofJob_bind]
        exact hP.bind ih fun _ => hP.pure _
      · exact hP.pure _

theorem extra : P _ list.extra := by
  refine hP.bind (h.current hP) fun partitions => hP.bind ?_ fun value => ?_
  · refine hP.bind (h.default? hP) fun value? => ?_
    split
    · exact hP.pure _
    · exact h.throw _
  · refine hP.bind (h.takeRetired hP _) fun retired => ?_
    split
    · exact hP.bind (hP.count _ _) fun _ => hP.bind (hP.log _) fun _ => hP.pure _
    · exact hP.pure _

theorem lags : P _ list.lags := by
  refine hP.bind (h.active? hP) fun active? => ?_
  split
  · exact hP.pure _
  · refine hP.bind (h.default? hP) fun value? => ?_
    split
    · exact hP.pure _
    · exact hP.pure _

/-- The decisions of a sliding list have what all that it reads and its moves of the default
have. -/
theorem each_of_moves (hmove : ∀ value, P _ (list.moveDefault value)) :
    list.strategy.Each P where
  missing := h.missing hP
  extra := h.extra hP
  afterAdding := hP.bind (h.active hP) fun _ => hmove _
  lags := h.lags hP

/-- **The decisions of a sliding list** have what all that it reads and its statements have. -/
theorem each (hrun : ∀ sql,
      P _ ((⟨list.session, list.account⟩ : Ddl.Retrier).run sql list.timing true)) :
    list.strategy.Each P :=
  h.each_of_moves hP fun _ => hP.bind (hrun _) fun _ => hP.log _

end SlidingList.Reads

namespace Manager

variable {manager : Manager}

section Statements

variable (hP : Task.Composes P)
include hP

theorem create_of_composes
    (hcreate : ∀ partition : Partition, P _ (manager.execute partition.createStatement))
    (partitions : List Partition) : P _ (manager.create partitions) := by
  induction partitions with
  | nil => exact hP.pure _
  | cons partition rest ih =>
      refine hP.bind (hcreate _) fun _ => ?_
      exact hP.bind (hP.count _ _) fun _ => hP.bind (hP.log _) fun _ => ih

theorem detach_of_composes
    (hdetach : ∀ partition : Partition, P _ (manager.execute partition.detachStatement))
    (partitions : List Partition) : P _ (manager.detach partitions) := by
  induction partitions with
  | nil => exact hP.pure _
  | cons partition rest ih =>
      refine hP.bind (hdetach _) fun _ => ?_
      exact hP.bind (hP.count _ _) fun _ => hP.bind (hP.log _) fun _ => ih

theorem extend_of_each (h : manager.strategy.Each P)
    (hcreate : ∀ partition : Partition, P _ (manager.execute partition.createStatement))
    (missing : List Partition) : P _ (manager.extend missing) := by
  unfold extend
  split
  · refine hP.bind h.lags fun lags => ?_
    split
    · exact hP.bind (hP.log _) fun _ => h.afterAdding
    · exact hP.pure _
  · exact hP.bind (create_of_composes hP hcreate _) fun _ => h.afterAdding

/-- A run has what each decision and each statement of it has. -/
theorem syncLocked_of_execute (h : manager.strategy.Each P)
    (hexecute : ∀ statement, P _ (manager.execute statement)) : P _ manager.syncLocked := by
  refine hP.bind h.missing fun missing => ?_
  refine hP.bind (extend_of_each hP h (fun _ => hexecute _) missing) fun _ => ?_
  exact hP.bind h.extra fun extra =>
    hP.bind (detach_of_composes hP (fun _ => hexecute _) extra) fun _ => hP.pure _

/-- **A run** has what each decision and each retried statement of it has. -/
theorem syncLocked_of_each
    (hrun : ∀ sql, P _ (manager.retrier.run sql manager.settings.timing true))
    (h : manager.strategy.Each P) : P _ manager.syncLocked :=
  syncLocked_of_execute hP h fun _ => hP.bind (hrun _) fun _ => hP.pure _

end Statements

end Manager

end Partition

end Upkeep
